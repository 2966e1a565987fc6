import WordMachine.Machine.Step
import WordMachine.Proofs.Placement
import WordMachine.Proofs.Runs

/-!
# Steps that fail

A step that fails leaves the machine as it was. There is one exception: a line of input that was
taken and cannot be stored is lost. Its characters are stored before their number, so they may be
in memory when the number has no address.

## Main definitions

* `Machine.TakesInput`: the instruction at the program counter takes a line of input
* `Machine.Intact`: nothing has changed that the program can see
* `Machine.LineLost`: a line was taken and not stored, or stored without its length

## Main results

* `Machine.intact_of_act`: an action that fails changes nothing
* `Machine.lineLost_of_input`: what a call that takes a line and fails leaves behind
* `Machine.intact_or_lineLost_of_step`: a failing step leaves the machine intact or loses a line
-/

namespace WordMachine.Machine

/-- The instruction at the program counter takes a line of input. -/
def TakesInput {σ : Type} (m : Machine σ) : Prop :=
  m.dispatch m.opcode = some .supervisor ∧ m.second = inputSubtype

/-- A machine has the memory, registers and terminal of another one, and its table of operations. -/
structure Intact {σ : Type} (m m' : Machine σ) : Prop where
  /-- Memory and registers are the same. -/
  core : m'.toCore = m.toCore
  /-- Input, output and prompts are the same. -/
  terminal : m'.terminal = m.terminal
  /-- The operations are the same. -/
  dispatch : m'.dispatch = m.dispatch

/-- What a machine that has taken a line and failed to store it has come to: only the line is gone,
and its characters may be in memory. -/
structure LineLost (m : Machine Buffer) (line : String) (queue : List String) (fault : Fault)
    (m' : Machine Buffer) : Prop where
  /-- The registers are the same. -/
  registers : m'.registers = m.registers
  /-- Just this line is taken, with one prompt, and nothing is put out. -/
  terminal : m'.terminal =
    { m.terminal with queue, prompts := m.terminal.prompts.push inputPrompt }
  /-- The operations are the same. -/
  dispatch : m'.dispatch = m.dispatch
  /-- The first character has no address and memory is the same, or the characters are in memory
  and their number has no address. -/
  memory :
    (m.dataAddress < 0 ∧ line ≠ "" ∧ fault = .negativeAddress m.dataAddress ∧
        m'.memory = m.memory) ∨
      (m.lengthAddress < 0 ∧ (0 ≤ m.dataAddress ∨ line = "") ∧
        fault = .negativeAddress m.lengthAddress ∧
        ∀ a, m'.memory.get? a =
          if m.dataAddress ≤ a then
            ((line.toList[(a - m.dataAddress).toNat]?).map fun c => (c.toNat : Int)).or
              (m.memory.get? a)
          else m.memory.get? a)

/-! ## Actions -/

section Action

variable {σ : Type} {m m' : Machine σ} {fault : Fault}

theorem Intact.noteTrace (h : Intact m.noteTrace m') : Intact m m' where
  core := h.core.trans m.noteTrace_toCore
  terminal := h.terminal.trans m.noteTrace_terminal
  dispatch := h.dispatch.trans m.noteTrace_dispatch

theorem intact_of_eq (h : m' = m) : Intact m m' :=
  ⟨by rw [h], by rw [h], by rw [h]⟩

/-- An action that fails changes nothing. -/
theorem intact_of_act {a : Action} (h : m.act a = (.error fault, m')) : Intact m m' := by
  unfold act at h
  split at h
  · cases h
  · exact intact_of_eq (Prod.mk.inj h).2.symm

end Action

/-! ## Calls of the supervisor -/

/-- The codes of the characters of a line. -/
def lineCodes (line : String) : List Int :=
  line.toList.map fun c => (c.toNat : Int)

theorem lineCodes_eq_nil_iff {line : String} : lineCodes line = [] ↔ line = "" := by
  simp [lineCodes]

/-- The characters of a line are stored all or none, and its length behind them. -/
theorem writeAll_lineWords (memory : Memory) (data length : Int) (line : String) :
    memory.writeAll (lineWords data length line) =
      if data < 0 ∧ line ≠ "" then (.error ⟨data⟩, memory)
      else (memory.load (lineCodes line) data).2.writeAll [(length, (line.length : Int))] := by
  have hwords : lineWords data length line =
      Memory.placed data (lineCodes line) ++ [(length, (line.length : Int))] := rfl
  rw [hwords, Memory.writeAll_append]
  by_cases h : data < 0 ∧ line ≠ ""
  · have hload : memory.writeAll (Memory.placed data (lineCodes line)) = (.error ⟨data⟩, memory) :=
      memory.load_of_neg h.1 fun hnil => h.2 (lineCodes_eq_nil_iff.mp hnil)
    rw [if_pos h, hload]
  · have hplace : 0 ≤ data ∨ lineCodes line = [] := by
      rw [lineCodes_eq_nil_iff, ← Int.not_lt]
      tauto
    have hload : memory.writeAll (Memory.placed data (lineCodes line)) =
        (.ok (), (memory.load (lineCodes line) data).2) :=
      Prod.ext (memory.load_fst hplace) rfl
    rw [if_neg h, hload]

/-- Where the characters of a line are found after they are stored. -/
theorem get?_load_lineCodes (memory : Memory) {data : Int} {line : String}
    (h : 0 ≤ data ∨ line = "") (a : Int) :
    (memory.load (lineCodes line) data).2.get? a =
      if data ≤ a then
        ((line.toList[(a - data).toNat]?).map fun c => (c.toNat : Int)).or (memory.get? a)
      else memory.get? a := by
  rcases h with h | rfl
  · rw [memory.get?_load _ h, lineCodes, List.getElem?_map]
  · simp [lineCodes]

section Calls

variable {m m' : Machine Buffer} {fault : Fault}

theorem intact_of_input (hq : m.terminal.queue = []) (h : m.input = (.error fault, m')) :
    Intact m m' := by
  have hnone : Terminal.request inputPrompt m.terminal = none := Buffer.request_eq_none_iff.mpr hq
  rw [input, hnone] at h
  exact intact_of_eq (Prod.mk.inj h).2.symm

/-- A call that takes a line and fails has lost the line. -/
theorem lineLost_of_input {line : String} {queue : List String}
    (hq : m.terminal.queue = line :: queue) (h : m.input = (.error fault, m')) :
    LineLost m line queue fault m' := by
  have hrequest : Terminal.request inputPrompt m.terminal =
      some (line, { m.terminal with queue, prompts := m.terminal.prompts.push inputPrompt }) := by
    show m.terminal.request inputPrompt = _
    rw [Buffer.request, hq]
  rw [input, hrequest] at h
  dsimp only at h
  rw [writeAll_lineWords] at h
  by_cases hdata : m.dataAddress < 0 ∧ line ≠ ""
  · -- the first character has no address
    rw [if_pos hdata] at h
    obtain ⟨hfault, rfl⟩ := Prod.mk.inj h
    exact ⟨rfl, rfl, rfl, .inl ⟨hdata.1, hdata.2, (Except.error.inj hfault).symm, rfl⟩⟩
  · -- the characters are stored, so it is their number that has no address
    rw [if_neg hdata, Memory.writeAll] at h
    have hplace : 0 ≤ m.dataAddress ∨ line = "" := by
      rw [← Int.not_lt]
      tauto
    cases hw : (m.memory.load (lineCodes line) m.dataAddress).2.write m.lengthAddress
        line.length with
    | ok n =>
      rw [hw] at h
      cases h
    | error e =>
      rw [hw] at h
      obtain ⟨hfault, rfl⟩ := Prod.mk.inj h
      obtain ⟨hlength, rfl⟩ := Memory.write_eq_error_iff.mp hw
      exact ⟨rfl, rfl, rfl, .inr ⟨hlength, hplace, (Except.error.inj hfault).symm,
        get?_load_lineCodes m.memory hplace⟩⟩

theorem intact_of_output (h : m.output = (.error fault, m')) : Intact m m' := by
  unfold output at h
  split at h
  · cases h
  · exact intact_of_eq (Prod.mk.inj h).2.symm

/-- An operation that fails changes nothing, unless it takes a line and there is one. -/
theorem perform_failed {operation : Operation} (h : m.perform operation = (.error fault, m')) :
    (¬(operation = .supervisor ∧ m.second = inputSubtype ∧ m.terminal.queue ≠ []) ∧
        Intact m m') ∨
      operation = .supervisor ∧ m.second = inputSubtype ∧
        ∃ line queue, m.terminal.queue = line :: queue ∧ LineLost m line queue fault m' := by
  cases operation with
  | action a => exact .inl ⟨nofun, intact_of_act h⟩
  | supervisor =>
    have h : m.supervisorCall = (.error fault, m') := h
    unfold supervisorCall at h
    split at h
    · next hsecond =>
      cases hq : m.terminal.queue with
      | nil => exact .inl ⟨fun hne => hne.2.2 rfl, intact_of_input hq h⟩
      | cons line queue =>
        exact .inr ⟨rfl, hsecond, line, queue, rfl, lineLost_of_input hq h⟩
    · next hsecond =>
      split at h
      · exact .inl ⟨fun hne => hsecond hne.2.1, intact_of_output h⟩
      · cases h

end Calls

/-! ## Steps -/

section Step

variable {m m' : Machine Buffer} {fault : Fault}

theorem LineLost.noteTrace {line : String} {queue : List String}
    (h : LineLost m.noteTrace line queue fault m') : LineLost m line queue fault m' := by
  have hdata : m.noteTrace.dataAddress = m.dataAddress := by
    rw [dataAddress, dataAddress, noteTrace_toCore]
  have hlength : m.noteTrace.lengthAddress = m.lengthAddress := by
    rw [lengthAddress, lengthAddress, noteTrace_toCore]
  obtain ⟨hregisters, hterminal, hdispatch, hmemory⟩ := h
  rw [noteTrace_toCore] at hregisters hmemory
  rw [noteTrace_terminal] at hterminal
  rw [noteTrace_dispatch] at hdispatch
  rw [hdata, hlength] at hmemory
  exact ⟨hregisters, hterminal, hdispatch, hmemory⟩

/-- **Failing steps.** Whatever table of operations the machine has, a step that fails leaves
memory, registers, input and output as they were; only a call that has taken a line of input, and
cannot store it, has lost the line. -/
theorem intact_or_lineLost_of_step (h : m.step = (.error fault, m')) :
    (¬(m.TakesInput ∧ m.terminal.queue ≠ []) ∧ Intact m m') ∨
      m.TakesInput ∧ ∃ line queue, m.terminal.queue = line :: queue ∧
        LineLost m line queue fault m' := by
  unfold step at h
  split at h
  · cases h
  · cases hd : m.dispatch m.opcode with
    | none =>
      -- the word is no instruction, and the machine has not begun to execute it
      rw [hd] at h
      refine .inl ⟨?_, intact_of_eq (Prod.mk.inj h).2.symm⟩
      rintro ⟨⟨hs, -⟩, -⟩
      cases hd.symm.trans hs
    | some operation =>
      rw [hd] at h
      dsimp only at h
      rcases hp : m.noteTrace.perform operation with ⟨_ | words, n⟩
      · rw [hp] at h
        obtain ⟨hfault, rfl⟩ := Prod.mk.inj h
        obtain rfl := Except.error.inj hfault
        have hcases := perform_failed hp
        rw [noteTrace_toCore, noteTrace_terminal] at hcases
        rcases hcases with ⟨hnot, hintact⟩ | ⟨rfl, hsecond, line, queue, hq, hlost⟩
        · refine .inl ⟨?_, hintact.noteTrace⟩
          rintro ⟨⟨hs, hsecond⟩, hq⟩
          exact hnot ⟨Option.some.inj (hd.symm.trans hs), hsecond, hq⟩
        · exact .inr ⟨⟨hd, hsecond⟩, line, queue, hq, hlost.noteTrace⟩
      · rw [hp] at h
        cases h

/-- A program that takes a line of input to address ten and its length to one below zero. -/
def lengthless : Machine Buffer where
  memory := ((∅ : Memory).load [0xF001, 10, -1] 0).2
  terminal := { queue := ["ab", "c"] }

theorem lineLost_lengthless :
    ∃ m', lengthless.step = (.error (.negativeAddress (-1)), m') ∧
      LineLost lengthless "ab" ["c"] (.negativeAddress (-1)) m' := by
  have hf : lengthless.step.1 = .error (.negativeAddress (-1)) := by decide +kernel
  have htakes : lengthless.TakesInput := by
    refine ⟨?_, ?_⟩ <;> decide +kernel
  rcases h : lengthless.step with ⟨result, m'⟩
  rw [h] at hf
  obtain rfl : result = _ := hf
  rcases intact_or_lineLost_of_step h with ⟨hnot, -⟩ | ⟨-, line, queue, hq, hlost⟩
  · exact absurd ⟨htakes, by decide⟩ hnot
  · obtain ⟨rfl, rfl⟩ : "ab" = line ∧ ["c"] = queue := List.cons.inj hq
    exact ⟨m', rfl, hlost⟩

end Step

end WordMachine.Machine
