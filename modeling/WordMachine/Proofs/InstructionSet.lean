import Mathlib
import WordMachine.Proofs.Agreement

/-!
# The instruction set

What each instruction changes, as one table, and the machine measured against it. The table is
about integers only: the words in the two registers, or the word and the address in memory, and the
flags. Everything is read before the instruction, so nothing depends on an order of reading and
writing, also where an instruction overwrites itself or changes its own index register.

## Main definitions

* `Mnemonic.change`, `Mnemonic.jumps`: what an instruction changes, and whether it jumps
* `Mnemonic.Admits`: the registers and the address that an instruction uses exist
* `Core.Changed`: memory, general registers and flags are changed in one way and not otherwise
* `Machine.Executed`: the machine after an instruction, in full

## Main results

* `Word.and_eq_land`, `Word.or_eq_lor`, `Word.xor_eq_xor`: the operations on bits are those on
  integers in two's complement
* `Mnemonic.admits_of_run`, `Mnemonic.ran_of_admits`: an action succeeds where its instruction is
  admitted, and makes the changes of that instruction
* `Machine.executed_of_stepped`: a step succeeds where the instruction is admitted, and then it
  executes the instruction
-/

namespace WordMachine

/-! ## The table -/

/-- What an instruction changes, apart from where the program goes on. -/
structure Change where
  /-- The word put into the first register. -/
  register : Option Int := none
  /-- The result whose sign the flags show. -/
  result : Option Int := none
  /-- The word stored at the effective address. -/
  stored : Option Int := none

namespace Mnemonic

/-- What an instruction changes, by the word `v` in the first register, the word `w` of the second
operand and the effective address `a`. -/
def change (v w a : Int) : Mnemonic → Change
  | ld => { register := some w, result := some w }
  | st => { stored := some v }
  | lad => { register := some a }
  | adda => { register := some (v + w), result := some (v + w) }
  | suba => { register := some (v - w), result := some (v - w) }
  | and => { register := some (v.land w), result := some (v.land w) }
  | or => { register := some (v.lor w), result := some (v.lor w) }
  | xor => { register := some (v.xor w), result := some (v.xor w) }
  | cpa => { result := some (v - w) }
  | nop | jmi | jnz | jze | jump | jpl | ret | svc => {}

/-- Whether the program goes on at the effective address. -/
def jumps (flags : Flags) : Mnemonic → Bool
  | jmi => flags.sign = 1
  | jnz => flags.zero ≠ 1
  | jze => flags.zero = 1
  | jump => true
  | jpl => flags.sign ≠ 1 ∧ flags.zero ≠ 1
  | nop | ld | st | lad | adda | suba | and | or | xor | cpa | ret | svc => false

end Mnemonic

namespace Core

/-- The word in a general register; zero for a register that does not exist. -/
def held (c : Core) (index : Nat) : Int :=
  (c.registers.get? index).getD 0

/-- The effective address of the instruction at the program counter. -/
def operandAddress (c : Core) : Int :=
  if c.second = 0 then c.addressWord else c.addressWord + c.held c.second

/-- The word of the second operand of the instruction at the program counter. -/
def operandWord (c : Core) : Form → Int
  | .register => c.held c.second
  | .address => c.memory.read c.operandAddress

/-- What an instruction at the program counter changes. -/
def change (c : Core) (k : Mnemonic) (form : Form) : Change :=
  k.change (c.held c.first) (c.operandWord form) c.operandAddress

/-- Memory, general registers and flags are changed in one way and not otherwise. -/
structure Changed (c : Core) (x : Change) (d : Core) : Prop where
  /-- The first register alone takes a new word. -/
  register (i : Int) : d.registers.get? i =
    if i = c.first then x.register.or (c.registers.get? i) else c.registers.get? i
  /-- The flags show the sign of a result, and no overflow, or are as they were. -/
  flags : d.registers.flags =
    (x.result.map fun r => ⟨0, if r < 0 then 1 else 0, if r = 0 then 1 else 0⟩).getD
      c.registers.flags
  /-- The effective address alone takes a new word, and no other address is written. -/
  memory (a : Int) : d.memory.get? a =
    if a = c.operandAddress then x.stored.or (c.memory.get? a) else c.memory.get? a

end Core

/-- The registers that an instruction uses exist, and so does the address at which it stores a
word. A jump that is not taken uses none. -/
def Mnemonic.Admits (k : Mnemonic) (c : Core) : Prop :=
  match k with
  | nop | ret | svc => True
  | ld | lad | adda | suba | and | or | xor | cpa => c.first < 8 ∧ c.second < 8
  | st => c.first < 8 ∧ c.second < 8 ∧ 0 ≤ c.operandAddress
  | jmi | jnz | jze | jump | jpl => k.jumps c.registers.flags = true → c.second < 8

namespace Machine

/-- A machine has executed an instruction: it has made the changes of the instruction and no other,
counted it, and gone on to the next instruction or to the one that it has jumped to. -/
structure Executed {σ : Type} (m : Machine σ) (k : Mnemonic) (form : Form) (m' : Machine σ) :
    Prop where
  /-- Memory, general registers and flags have changed as listed. -/
  changed : m.toCore.Changed (m.change k form) m'.toCore
  /-- The program goes on behind the words of the instruction, unless it jumps. -/
  counter : m'.registers.counter =
    if k.jumps m.registers.flags then m.operandAddress else m.registers.counter + form.length
  /-- The instruction is counted. -/
  steps : m'.registers.steps = m.registers.steps + 1
  /-- Input, output and prompts are the same. -/
  terminal : m'.terminal = m.terminal
  /-- The table of operations is the same. -/
  dispatch : m'.dispatch = m.dispatch
  /-- The step is traced if steps are. -/
  trace : m'.tracing = m.tracing ∧ m'.trace = m.noteTrace.trace

end Machine

/-! ## Words and flags -/

namespace Word

theorem xor_and_eq_ldiff (m n : Nat) : m ^^^ (m &&& n) = m.ldiff n := by
  apply Nat.eq_of_testBit_eq
  intro i
  rw [Nat.testBit_xor, Nat.testBit_and, Nat.testBit_ldiff]
  cases m.testBit i <;> cases n.testBit i <;> rfl

theorem and_eq_land (v w : Int) : and v w = v.land w := by
  cases v <;> cases w <;> simp only [and, Int.land, xor_and_eq_ldiff, Int.ofNat_eq_natCast]

theorem or_eq_lor (v w : Int) : or v w = v.lor w := by
  cases v <;> cases w <;> simp only [or, Int.lor, xor_and_eq_ldiff, Int.ofNat_eq_natCast]

theorem xor_eq_xor (v w : Int) : xor v w = v.xor w := by
  cases v <;> cases w <;> rfl

end Word

theorem Flags.ofResult_eq (r : Int) :
    ofResult r = ⟨0, if r < 0 then 1 else 0, if r = 0 then 1 else 0⟩ := by
  unfold ofResult
  rcases lt_trichotomy r 0 with h | rfl | h
  · rw [if_neg (by omega), if_neg (by omega), if_pos h, if_neg (by omega)]
  · rfl
  · rw [if_pos h, if_neg (by omega), if_neg (by omega)]

/-! ## Operands -/

namespace Core

variable {c d : Core}

theorem register_eq_ok_iff {i : Nat} {w : Int} :
    c.register i = .ok w ↔ i < 8 ∧ c.held i = w := by
  have hsome : (c.registers.get? i).isSome ↔ i < 8 := by
    rw [Registers.get?_isSome_iff]
    omega
  unfold register held
  cases hget : c.registers.get? i with
  | none =>
    have hi : ¬i < 8 := by
      intro hi
      simpa [hget] using hsome.mpr hi
    simp [hi]
  | some v =>
    have hi : i < 8 := hsome.mp (by rw [hget]; rfl)
    simp [hi]

/-- Where the second operand is found, if its register exists. -/
def place (c : Core) (h : c.second < 8) : Form → Place
  | .register => .register ⟨c.second, h⟩
  | .address => .memory c.addressWord (if c.second = 0 then none else some ⟨c.second, h⟩)

theorem general_eq_held (i : Fin 8) : c.general i = c.held i.val := by
  obtain ⟨-, h⟩ := register_eq_ok_iff.mp (c.register_val i)
  exact h.symm

theorem address_place (h : c.second < 8) : (c.place h .address).address c = c.operandAddress := by
  unfold place operandAddress
  by_cases h0 : c.second = 0
  · rw [if_pos h0, if_pos h0]
    rfl
  · rw [if_neg h0, if_neg h0]
    exact congrArg (c.addressWord + ·) (general_eq_held _)

theorem operand_place (h : c.second < 8) (form : Form) :
    (c.place h form).operand c = c.operandWord form := by
  cases form with
  | register => exact general_eq_held _
  | address => exact congrArg c.memory.read (address_place h)

theorem fits_place (h : c.second < 8) (form : Form) : (c.place h form).Fits c form := by
  cases form with
  | register => exact .register rfl
  | address =>
    unfold place
    by_cases h0 : c.second = 0
    · rw [if_pos h0]
      exact .absolute h0
    · rw [if_neg h0]
      refine .indexed rfl ?_
      intro hx
      exact h0 (Fin.val_eq_of_eq hx)

theorem decodes_place (h1 : c.first < 8) (h2 : c.second < 8) (form : Form) :
    c.Decodes form ⟨c.first, h1⟩ (c.place h2 form) :=
  ⟨rfl, fits_place h2 form⟩

/-! ## Where actions succeed -/

theorem operandAddress_of_effectiveAddress {a : Int} (h : c.effectiveAddress = .ok a) :
    c.second < 8 ∧ c.operandAddress = a := by
  unfold effectiveAddress at h
  unfold operandAddress
  by_cases h0 : c.second = 0
  · rw [if_pos h0] at h ⊢
    exact ⟨by omega, Except.ok.inj h⟩
  · rw [if_neg h0] at h ⊢
    obtain ⟨x, hx, h⟩ := bind_eq_ok h
    obtain ⟨hlt, rfl⟩ := register_eq_ok_iff.mp hx
    exact ⟨hlt, Except.ok.inj h⟩

theorem second_lt_of_secondOperand {form : Form} {w : Int} (h : c.secondOperand form = .ok w) :
    c.second < 8 := by
  cases form with
  | register => exact (register_eq_ok_iff.mp h).1
  | address =>
    obtain ⟨a, ha, -⟩ := bind_eq_ok h
    exact (operandAddress_of_effectiveAddress ha).1

theorem lt_of_setRegister {i : Nat} {w : Int} (h : c.setRegister i w = .ok d) : i < 8 := by
  unfold setRegister at h
  split at h
  · next hset =>
    have hrange := Registers.set?_isSome_iff.mp (Option.isSome_of_eq_some hset)
    omega
  · cases h

theorem nonneg_of_store {a w : Int} (h : c.store a w = .ok d) : 0 ≤ a := by
  unfold store at h
  split at h
  · next hw => exact Memory.nonneg_of_write_eq_ok hw
  · cases h

theorem second_lt_of_jump {condition : Condition} {n : Nat}
    (h : (Action.jump condition).run c = .ok (d, n)) (hc : condition.holds c.registers.flags) :
    c.second < 8 := by
  rw [Action.run, if_pos hc] at h
  obtain ⟨a, ha, -⟩ := bind_eq_ok h
  exact (operandAddress_of_effectiveAddress ha).1

end Core

namespace Mnemonic

variable {k : Mnemonic} {form : Form} {a : Action} {c d : Core} {n opcode : Nat}

/-- The action of a jump has the condition of the jump. -/
theorem exists_condition (hop : k.operation? form = some (.action a))
    (hk : k.takesAddressFirst = true) :
    ∃ condition, a = .jump condition ∧ ∀ flags, condition.holds flags = k.jumps flags := by
  cases k with
  | jmi | jnz | jze | jump | jpl =>
    cases hop
    refine ⟨_, rfl, ?_⟩
    intro flags
    simp [Condition.holds, jumps, Flags.isZero, Flags.isNegative, beq_eq_decide]
  | _ => cases hk

/-- An action succeeds only where its instruction is admitted. -/
theorem admits_of_run (hop : k.operation? form = some (.action a)) (h : a.run c = .ok (d, n)) :
    k.Admits c := by
  -- what an action reads and sets in turn has succeeded, so the registers for it exist
  cases k with
  | ret | svc => cases hop
  | nop => trivial
  | ld =>
    cases hop
    obtain ⟨w, hw, h⟩ := bind_eq_ok h
    obtain ⟨e, he, -⟩ := bind_eq_ok h
    exact ⟨Core.lt_of_setRegister he, Core.second_lt_of_secondOperand hw⟩
  | st =>
    cases hop
    obtain ⟨b, hb, h⟩ := bind_eq_ok h
    obtain ⟨w, hw, h⟩ := bind_eq_ok h
    obtain ⟨e, he, -⟩ := bind_eq_ok h
    obtain ⟨hsecond, rfl⟩ := Core.operandAddress_of_effectiveAddress hb
    exact ⟨(Core.register_eq_ok_iff.mp hw).1, hsecond, Core.nonneg_of_store he⟩
  | lad =>
    cases hop
    obtain ⟨b, hb, h⟩ := bind_eq_ok h
    obtain ⟨e, he, -⟩ := bind_eq_ok h
    exact ⟨Core.lt_of_setRegister he, (Core.operandAddress_of_effectiveAddress hb).1⟩
  | adda | suba | and | or | xor | cpa =>
    cases hop
    obtain ⟨v, hv, h⟩ := bind_eq_ok h
    obtain ⟨w, hw, -⟩ := bind_eq_ok h
    exact ⟨(Core.register_eq_ok_iff.mp hv).1, Core.second_lt_of_secondOperand hw⟩
  | jmi | jnz | jze | jump | jpl =>
    obtain ⟨condition, rfl, hc⟩ := exists_condition hop rfl
    intro hj
    exact Core.second_lt_of_jump h ((hc _).trans hj)

end Mnemonic

/-! ## What actions change -/

namespace Core

variable {c d : Core} {form : Form}

/-- The core after an action and the number of words to go on by, for an instruction with given
changes that jumps or does not jump. -/
structure Ran (c : Core) (x : Change) (jumps : Bool) (form : Form) (d : Core) (n : Nat) : Prop where
  changed : c.Changed x d
  steps : d.registers.steps = c.registers.steps
  counter : jumps = true → d.registers.counter = c.operandAddress
  words : n = if jumps then 0 else form.length

theorem get?_put (i : Fin 8) (w : Int) (j : Int) :
    (c.put i w).registers.get? j = if j = i.val then some w else c.registers.get? j := by
  have hset : c.registers.set? (i.val : Nat) w = some (c.put i w).registers := by
    rw [Registers.set?, dif_pos (by omega)]
    rfl
  exact Registers.get?_set? hset j

theorem changed_refl (c : Core) : c.Changed {} c where
  register i := by simp
  flags := rfl
  memory a := by simp

theorem changed_withCounter (a : Int) : c.Changed {} (c.withCounter a) :=
  ⟨c.changed_refl.register, c.changed_refl.flags, c.changed_refl.memory⟩

theorem changed_put (h : c.first < 8) (r : Int) :
    c.Changed { register := some r } (c.put ⟨c.first, h⟩ r) where
  register i := get?_put ⟨c.first, h⟩ r i
  flags := rfl
  memory a := by simp [put]

/-- The flags show the sign of a result, whatever else an instruction has changed. -/
theorem Changed.withFlags {x : Change} (h : c.Changed x d) (r : Int) :
    c.Changed { x with result := some r } (d.withFlags r) where
  register := h.register
  flags := Flags.ofResult_eq r
  memory := h.memory

theorem changed_store {w : Int} (h : c.store c.operandAddress w = .ok d) :
    c.Changed { stored := some w } d ∧ d.registers = c.registers := by
  unfold store at h
  split at h
  · next memory hw =>
    cases h
    exact ⟨⟨c.changed_refl.register, rfl, Memory.get?_write hw⟩, rfl⟩
  · cases h

theorem exists_store {w : Int} (h : 0 ≤ c.operandAddress) :
    ∃ d, c.store c.operandAddress w = .ok d := by
  obtain ⟨memory, hw⟩ := c.memory.exists_write_eq_ok h w
  rw [store, hw]
  exact ⟨_, rfl⟩

/-- A jump changes nothing, taken or not. -/
theorem ran_of_jump {condition : Condition} {jumps : Bool}
    (hc : condition.holds c.registers.flags = jumps) (h : jumps = true → c.second < 8) :
    ∃ d n, (Action.jump condition).run c = .ok (d, n) ∧ c.Ran {} jumps .address d n := by
  rw [Action.run, hc]
  cases jumps with
  | true =>
    have hsecond := h rfl
    rw [if_pos rfl, (fits_place hsecond .address).effectiveAddress_eq, address_place]
    exact ⟨_, 0, rfl, changed_withCounter _, rfl, fun _ => rfl, rfl⟩
  | false =>
    refine ⟨c, 2, rfl, c.changed_refl, rfl, ?_, rfl⟩
    intro hj
    cases hj

end Core

namespace Mnemonic

variable {k : Mnemonic} {form : Form} {a : Action} {c : Core} {opcode : Nat}

/-- An action makes the changes of its instruction wherever that is admitted. -/
theorem ran_of_admits (hcode : k.opcode? form = some opcode)
    (hop : k.operation? form = some (.action a)) (h : k.Admits c) :
    ∃ d n, a.run c = .ok (d, n) ∧ c.Ran (c.change k form) (k.jumps c.registers.flags) form d n := by
  -- both registers of an instruction that uses them exist, so its operands are found
  cases k with
  | ret | svc => cases hop
  | nop =>
    cases form <;> cases hcode
    cases hop
    exact ⟨c, 1, rfl, c.changed_refl, rfl, nofun, rfl⟩
  | ld =>
    cases hop
    have hd := Core.decodes_place h.1 h.2 form
    refine ⟨_, _, hd.run_load, ?_, rfl, nofun, rfl⟩
    rw [Core.operand_place]
    exact (Core.changed_put h.1 _).withFlags _
  | adda | suba | and | or | xor =>
    cases hop
    have hd := Core.decodes_place h.1 h.2 form
    refine ⟨_, _, hd.run_compute _, ?_, rfl, nofun, rfl⟩
    rw [Core.combine, Core.operand_place, Core.general_eq_held]
    simp only [Core.change, change, Arithmetic.eval, Word.and_eq_land, Word.or_eq_lor,
      Word.xor_eq_xor]
    exact (Core.changed_put h.1 _).withFlags _
  | cpa =>
    cases hop
    have hd := Core.decodes_place h.1 h.2 form
    refine ⟨_, _, hd.run_compare, ?_, rfl, nofun, rfl⟩
    rw [Core.operand_place, Core.general_eq_held]
    exact c.changed_refl.withFlags _
  | lad =>
    cases form <;> cases hcode
    cases hop
    have hd := Core.decodes_place h.1 h.2 .address
    refine ⟨_, _, hd.run_loadAddress, ?_, rfl, nofun, rfl⟩
    rw [Core.address_place]
    exact Core.changed_put h.1 _
  | st =>
    cases form <;> cases hcode
    cases hop
    obtain ⟨h1, h2, ha⟩ := h
    have hd := Core.decodes_place h1 h2 .address
    obtain ⟨d, hstore⟩ := Core.exists_store (c := c) (w := c.held c.first) ha
    obtain ⟨hchanged, hregisters⟩ := Core.changed_store hstore
    refine ⟨d, 2, ?_, hchanged, by rw [hregisters], nofun, rfl⟩
    rw [hd.run_store, Core.address_place, Core.general_eq_held, hstore]
    rfl
  | jmi | jnz | jze | jump | jpl =>
    obtain ⟨condition, rfl, hc⟩ := exists_condition hop rfl
    cases form <;> cases hcode
    exact Core.ran_of_jump (hc _) h

end Mnemonic

namespace Machine

variable {σ : Type} {m m' : Machine σ} {k : Mnemonic} {form : Form} {a : Action}

/-- A machine that goes on after an action has executed its instruction. -/
theorem executed_of_ran {d : Core} {n : Nat}
    (h : m.toCore.Ran (m.change k form) (k.jumps m.registers.flags) form d n) :
    m.Executed k form ({ m.noteTrace with toCore := d }.advance m.registers.counter n) where
  changed := ⟨h.changed.register, h.changed.flags, h.changed.memory⟩
  counter := by
    cases hj : k.jumps m.registers.flags with
    | true =>
      -- the jump has set the program counter itself
      have hn : n = 0 := by rw [h.words, hj, if_pos rfl]
      rw [if_pos rfl, ← h.counter hj, hn]
      rfl
    | false =>
      have hn : n = form.length := by rw [h.words, hj, if_neg Bool.false_ne_true]
      have hpos : n ≠ 0 := by
        rw [hn]
        cases form <;> decide
      rw [if_neg Bool.false_ne_true, ← hn]
      exact if_neg hpos
  steps := congrArg (· + 1) h.steps
  terminal := m.noteTrace_terminal
  dispatch := m.noteTrace_dispatch
  trace := ⟨m.noteTrace_tracing, rfl⟩

variable [Terminal σ]

/-- **The instruction set.** A step with an instruction at the program counter succeeds exactly
where the instruction is admitted, and then it executes the instruction. -/
theorem executed_of_stepped (hm : m.dispatch = Dispatch.standard)
    (hcode : k.opcode? form = some m.opcode) (hret : k ≠ .ret) (hsvc : k ≠ .svc) :
    (∀ m', m.stepped = (.ok true, m') → m.Executed k form m') ∧
      ((∃ m', m.stepped = (.ok true, m')) ↔ k.Admits m.toCore) := by
  obtain ⟨a, hop⟩ := Mnemonic.exists_action form hret hsvc
  have hstep := stepped_of_operation hm hcode hret hop
  rw [act, noteTrace_toCore] at hstep
  by_cases hadmits : k.Admits m.toCore
  · obtain ⟨d, n, hrun, hran⟩ := Mnemonic.ran_of_admits hcode hop hadmits
    rw [hrun] at hstep
    refine ⟨?_, fun _ => hadmits, fun _ => ⟨_, hstep⟩⟩
    intro m' h
    obtain rfl := (Prod.mk.inj (hstep.symm.trans h)).2
    exact executed_of_ran hran
  · -- the action has failed, or else the instruction would be admitted
    have hfail : ∀ m', m.stepped ≠ (.ok true, m') := by
      intro m' h
      cases hrun : a.run m.toCore with
      | ok r => exact hadmits (Mnemonic.admits_of_run hop hrun)
      | error fault =>
        rw [hrun] at hstep
        cases hstep.symm.trans h
    refine ⟨fun m' h => absurd h (hfail m'), ?_, fun h => absurd h hadmits⟩
    rintro ⟨m', h⟩
    exact absurd h (hfail m')

/-- An instruction at address zero that stores the index register in its own second word. -/
def selfStoring : Machine Buffer where
  memory := ((∅ : Memory).load [0x1111, 0] 0).2
  registers := .ofWords [0, 1]
  terminal := {}

theorem executed_selfStoring :
    ∃ m', selfStoring.stepped = (.ok true, m') ∧ selfStoring.Executed .st .address m' ∧
      m'.memory.read 1 = 1 ∧ m'.registers.counter = 2 := by
  have hcode : Mnemonic.st.opcode? .address = some selfStoring.opcode := by decide +kernel
  obtain ⟨hexecuted, hadmits⟩ := executed_of_stepped (m := selfStoring) rfl hcode nofun nofun
  obtain ⟨m', h⟩ := hadmits.mpr (by
    refine ⟨?_, ?_, ?_⟩ <;> decide +kernel)
  have hm' := hexecuted m' h
  refine ⟨m', h, hm', ?_, ?_⟩
  · have haddress : (1 : Int) = selfStoring.operandAddress := by decide +kernel
    have hstored : (selfStoring.change .st .address).stored = some 1 := by decide +kernel
    rw [Memory.read, hm'.changed.memory, if_pos haddress, hstored]
    rfl
  · rw [hm'.counter]
    rfl

end Machine

end WordMachine
