import WordMachine.Proofs.Failures

/-!
# Echoes

A call that takes a line and a call behind it that puts out the same buffer give the line back. The
characters are stored before their number, so the number wins over a character at the same address,
and only the low sixteen bits of each word are put out. The buffer and the length may overlap each
other and the first call, which has read its addresses by then, but not the second call.

## Main definitions

* `Memory.CallAt`: a supervisor call at an address
* `Memory.StoredLine`: memory with a line stored in it
* `echoText`: the text that comes back for a line
* `Machine.Echoes`, `Machine.Echoed`: the machine before and after the two calls

## Main results

* `Memory.storedLine_of_lineWords`: what storing a line does to memory
* `Machine.outputText_of_storedLine`: what is put out of a buffer with a line
* `Machine.echoed_of_echoes`: the two calls echo the line
-/

namespace WordMachine

/-! ## Lines in memory -/

namespace Memory

/-- A supervisor call at an address, with its sub-type and the two addresses that it works on. -/
structure CallAt (m : Memory) (a : Int) (subtype : Nat) (data length : Int) : Prop where
  opcode : Word.opcode (m.read a) = supervisorOpcode
  second : Word.second (m.read a) = subtype
  data : m.read (a + 1) = data
  length : m.read (a + 2) = length

/-- Memory `n` is memory `m` with a line: the characters at consecutive addresses, and their number
at another address or in the place of a character. -/
structure StoredLine (m : Memory) (data length : Int) (line : String) (n : Memory) : Prop where
  /-- The number of the characters is at its address. -/
  number : n.get? length = some (line.length : Int)
  /-- So are all characters for which the number leaves the place. -/
  character : ∀ (i : Nat) (c : Char), line.toList[i]? = some c → data + i ≠ length →
    n.get? (data + i) = some (c.toNat : Int)
  /-- Nothing else has changed. -/
  outside : ∀ a, a ≠ length → a < data ∨ data + line.length ≤ a → n.get? a = m.get? a

variable {m n : Memory} {data length : Int} {line : String}

/-- A call stays where nothing is written over it. -/
theorem CallAt.of_get? {a : Int} {subtype : Nat} (h : m.CallAt a subtype data length)
    (hsame : ∀ b, a ≤ b → b ≤ a + 2 → n.get? b = m.get? b) : n.CallAt a subtype data length := by
  have hread (b : Int) (hlo : a ≤ b) (hhi : b ≤ a + 2) : n.read b = m.read b := by
    rw [read, read, hsame b hlo hhi]
  constructor
  · rw [hread a (by omega) (by omega), h.opcode]
  · rw [hread a (by omega) (by omega), h.second]
  · rw [hread (a + 1) (by omega) (by omega), h.data]
  · rw [hread (a + 2) (by omega) (by omega), h.length]

/-- A line is stored at addresses that are not below zero. -/
theorem storedLine_of_lineWords (m : Memory) (hdata : 0 ≤ data) (hlength : 0 ≤ length)
    (line : String) :
    ∃ n, m.writeAll (Machine.lineWords data length line) = (.ok (), n) ∧
      m.StoredLine data length line n := by
  obtain ⟨n, hn⟩ := (m.load (Machine.lineCodes line) data).2.exists_write_eq_ok hlength line.length
  refine ⟨n, ?_, ?_⟩
  · rw [Machine.writeAll_lineWords, if_neg (by omega), writeAll, hn]
    rfl
  · -- the number is written over whatever the characters have left at its address
    have hget (a : Int) : n.get? a = if a = length then some (line.length : Int)
        else if data ≤ a then
          ((line.toList[(a - data).toNat]?).map fun c => (c.toNat : Int)).or (m.get? a)
        else m.get? a := by
      rw [get?_write hn, Machine.get?_load_lineCodes m (.inl hdata)]
    constructor
    · rw [hget, if_pos rfl]
    · -- a character is at its index behind the first one
      intro i c hc hne
      have hi : (data + (i : Int) - data).toNat = i := by omega
      rw [hget, if_neg hne, if_pos (by omega), hi, hc]
      rfl
    · intro a hne hout
      rw [hget, if_neg hne]
      split
      · rw [List.getElem?_eq_none (by rw [String.length_toList]; omega)]
        rfl
      · rfl

end Memory

/-! ## The text that comes back -/

/-- The text that comes back for a line: the low sixteen bits of its characters, with the number of
the characters in the place of the one at whose address it is stored. -/
def echoText (data length : Int) (line : String) : List CodePoint :=
  line.toList.zipIdx.map fun (c, i) =>
    CodePoint.ofWord (if data + i = length then (line.length : Int) else (c.toNat : Int))

section EchoText

variable {data length : Int} {line : String}

theorem length_echoText : (echoText data length line).length = line.length := by
  simp [echoText, String.length_toList]

theorem getElem?_echoText {i : Nat} {c : Char} (hc : line.toList[i]? = some c) :
    (echoText data length line)[i]? =
      some (CodePoint.ofWord
        (if data + i = length then (line.length : Int) else (c.toNat : Int))) := by
  simp [echoText, List.getElem?_zipIdx, hc]

/-- A character of sixteen bits comes back as it is. -/
theorem CodePoint.ofWord_toNat {c : Char} (h : c.toNat < 0x10000) :
    CodePoint.ofWord (c.toNat : Int) = CodePoint.ofChar c := by
  apply Fin.ext
  rw [CodePoint.val_ofWord, CodePoint.val_ofChar]
  omega

/-- The line itself comes back if its characters have sixteen bits and their number is stored
outside the buffer. -/
theorem echoText_eq_ofString (hwide : ∀ c ∈ line.toList, c.toNat < 0x10000)
    (hout : length < data ∨ data + line.length ≤ length) :
    echoText data length line = CodePoint.ofString line := by
  apply List.ext_getElem?
  intro i
  rw [CodePoint.ofString, List.getElem?_map]
  -- behind the last character there is nothing in either text
  cases hc : line.toList[i]? with
  | none =>
    have hi : (echoText data length line).length ≤ i := by
      rw [length_echoText, ← String.length_toList]
      exact List.getElem?_eq_none_iff.mp hc
    rw [List.getElem?_eq_none hi]
    rfl
  | some c =>
    have hi := (List.getElem?_eq_some_iff.mp hc).1
    rw [String.length_toList] at hi
    rw [getElem?_echoText hc, if_neg (by omega),
      CodePoint.ofWord_toNat (hwide c (List.mem_of_getElem? hc))]
    rfl

end EchoText

/-! ## The two calls -/

namespace Machine

/-- An instruction whose operation succeeds goes on. -/
theorem step_of_perform {σ : Type} [Terminal σ] {m n : Machine σ} {operation : Operation}
    {words : Nat} (hret : m.opcode ≠ returnOpcode) (hd : m.dispatch m.opcode = some operation)
    (hp : m.noteTrace.perform operation = (.ok words, n)) :
    m.step = (.ok (.went words), n.advance m.registers.counter words) := by
  rw [step, if_neg hret, hd]
  dsimp only
  rw [hp]

section Calls

variable {m : Machine Buffer} {data length : Int} {line : String} {queue : List String}

/-- A call of three words is executed and leaves a memory and a terminal behind. -/
structure Called (m : Machine Buffer) (memory : Memory) (terminal : Buffer) (a : Machine Buffer) :
    Prop where
  step : m.step = (.ok (.went 3), a)
  memory : a.memory = memory
  terminal : a.terminal = terminal
  registers : a.registers = { m.registers with
    counter := m.registers.counter + 3, steps := m.registers.steps + 1 }
  dispatch : a.dispatch = m.dispatch

theorem called_of_supervisorCall {memory : Memory} {terminal : Buffer} {subtype : Nat}
    (hd : m.dispatch supervisorOpcode = some .supervisor)
    (hc : m.memory.CallAt m.registers.counter subtype data length)
    (hp : m.noteTrace.supervisorCall = (.ok 3, { m.noteTrace with memory, terminal })) :
    ∃ a, m.Called memory terminal a := by
  have hopcode : m.opcode = supervisorOpcode := hc.opcode
  have hret : m.opcode ≠ returnOpcode := by
    rw [hopcode]
    decide
  have hregisters : m.noteTrace.registers = m.registers := by rw [noteTrace_toCore]
  refine ⟨({ m.noteTrace with memory, terminal } : Machine Buffer).advance m.registers.counter 3,
    ?_, rfl, rfl, ?_, m.noteTrace_dispatch⟩
  · apply step_of_perform hret
    · rw [hopcode, hd]
    · exact hp
  · rw [advance, hregisters]
    rfl

theorem input_of_queue (hq : m.terminal.queue = line :: queue) (hdata : 0 ≤ m.dataAddress)
    (hlength : 0 ≤ m.lengthAddress) :
    ∃ memory, m.memory.StoredLine m.dataAddress m.lengthAddress line memory ∧
      m.input = (.ok 3, { m with
        terminal := { m.terminal with queue, prompts := m.terminal.prompts.push inputPrompt }
        memory }) := by
  -- there is a line in the queue, so the terminal hands it over
  have hrequest : Terminal.request inputPrompt m.terminal =
      some (line, { m.terminal with queue, prompts := m.terminal.prompts.push inputPrompt }) := by
    show m.terminal.request inputPrompt = _
    rw [Buffer.request, hq]
  obtain ⟨memory, hw, hs⟩ := m.memory.storedLine_of_lineWords hdata hlength line
  refine ⟨memory, hs, ?_⟩
  rw [input, hrequest]
  dsimp only
  rw [hw]

/-- Of a buffer with a line the text for the line is put out. -/
theorem outputText_of_storedLine {memory : Memory}
    (h : memory.StoredLine m.dataAddress m.lengthAddress line m.memory) :
    m.outputText = echoText m.dataAddress m.lengthAddress line := by
  have hnumber : (m.memory.read m.lengthAddress).toNat = line.length := by
    rw [Memory.read, h.number]
    rfl
  apply List.ext_getElem?
  intro i
  rw [outputText, hnumber, List.getElem?_map]
  rcases Nat.lt_or_ge i line.length with hi | hi
  · have hc := List.getElem?_eq_getElem (l := line.toList) (String.length_toList ▸ hi)
    rw [List.getElem?_range hi, getElem?_echoText hc, Option.map_some]
    -- the word is the number or the character, as the text has it
    split
    · next heq => rw [heq, Memory.read, h.number]; rfl
    · next hne => rw [Memory.read, h.character i _ hc hne]; rfl
  · have hnone : (echoText m.dataAddress m.lengthAddress line)[i]? = none :=
      List.getElem?_eq_none (length_echoText ▸ hi)
    rw [List.getElem?_eq_none (by rwa [List.length_range]), hnone]
    rfl

/-- The addresses of a call at the program counter, seen while the call is traced. -/
theorem addresses_of_callAt {subtype : Nat}
    (hc : m.memory.CallAt m.registers.counter subtype data length) :
    m.noteTrace.second = subtype ∧ m.noteTrace.dataAddress = data ∧
      m.noteTrace.lengthAddress = length := by
  rw [dataAddress, lengthAddress, noteTrace_toCore]
  exact ⟨hc.second, hc.data, hc.length⟩

/-- A call that takes a line stores it. -/
theorem exists_called_of_inputCall (hd : m.dispatch supervisorOpcode = some .supervisor)
    (hc : m.memory.CallAt m.registers.counter inputSubtype data length)
    (hq : m.terminal.queue = line :: queue) (hdata : 0 ≤ data) (hlength : 0 ≤ length) :
    ∃ memory a, m.memory.StoredLine data length line memory ∧ m.Called memory
      { m.terminal with queue, prompts := m.terminal.prompts.push inputPrompt } a := by
  obtain ⟨hsecond, hd', hl'⟩ := addresses_of_callAt hc
  have hq' : m.noteTrace.terminal.queue = line :: queue := by rw [noteTrace_terminal, hq]
  obtain ⟨memory, hs, hinput⟩ := input_of_queue hq' (hd' ▸ hdata) (hl' ▸ hlength)
  rw [hd', hl', noteTrace_toCore] at hs
  have hcall : m.noteTrace.supervisorCall = m.noteTrace.input := by
    rw [supervisorCall, if_pos hsecond]
  rw [noteTrace_terminal] at hinput
  obtain ⟨a, ha⟩ := called_of_supervisorCall hd hc (hcall.trans hinput)
  exact ⟨memory, a, hs, ha⟩

/-- A call that puts out a buffer with a line puts out the text for the line. -/
theorem exists_called_of_outputCall (hd : m.dispatch supervisorOpcode = some .supervisor)
    (hc : m.memory.CallAt m.registers.counter outputSubtype data length) {memory : Memory}
    (hs : memory.StoredLine data length line m.memory) :
    ∃ a, m.Called m.memory (m.terminal.emit (echoText data length line)) a := by
  obtain ⟨hsecond, hd', hl'⟩ := addresses_of_callAt hc
  have hmemory : m.noteTrace.memory = m.memory := by rw [noteTrace_toCore]
  have htext : m.noteTrace.outputText = echoText data length line := by
    have hs' : memory.StoredLine m.noteTrace.dataAddress m.noteTrace.lengthAddress line
        m.noteTrace.memory := by rwa [hd', hl', hmemory]
    rw [outputText_of_storedLine hs', hd', hl']
  apply called_of_supervisorCall hd hc
  rw [supervisorCall, if_neg (by rw [hsecond]; decide), if_pos hsecond, output, htext,
    noteTrace_terminal, ← hmemory]
  rfl

end Calls

/-- The machine is about to take a line and to put out the same buffer, by two calls of which the
second is not stored over. -/
structure Echoes (m : Machine Buffer) (data length : Int) (line : String) (queue : List String) :
    Prop where
  /-- The supervisor call is in the table of operations. -/
  dispatch : m.dispatch supervisorOpcode = some .supervisor
  /-- The call at the program counter takes a line. -/
  input : m.memory.CallAt m.registers.counter inputSubtype data length
  /-- The call behind it puts out a text, from the same addresses. -/
  output : m.memory.CallAt (m.registers.counter + 3) outputSubtype data length
  /-- The characters can be written. -/
  data_nonneg : 0 ≤ data
  /-- So can their number. -/
  length_nonneg : 0 ≤ length
  /-- The line is the first in the queue. -/
  queue : m.terminal.queue = line :: queue
  /-- No character is stored in the second call. -/
  data_apart : ∀ i : Nat, i < line.length →
    data + i < m.registers.counter + 3 ∨ m.registers.counter + 5 < data + i
  /-- Neither is their number. -/
  length_apart : length < m.registers.counter + 3 ∨ m.registers.counter + 5 < length

/-- The machine has taken a line and put out a text for it. -/
structure Echoed (m : Machine Buffer) (data length : Int) (line : String) (queue : List String)
    (text : List CodePoint) (m' : Machine Buffer) : Prop where
  /-- The program counter is behind both calls, and two instructions are counted. -/
  registers : m'.registers = { m.registers with
    counter := m.registers.counter + 6, steps := m.registers.steps + 2 }
  /-- The line is in memory. -/
  memory : m.memory.StoredLine data length line m'.memory
  /-- One line is taken, with one prompt, and one text is put out. -/
  terminal : m'.terminal =
    { queue, prompts := m.terminal.prompts.push inputPrompt, output := m.terminal.output.push text }
  /-- The operations are the same. -/
  dispatch : m'.dispatch = m.dispatch
  /-- The text is as long as the line. -/
  text_length : text.length = line.length
  /-- It has the low sixteen bits of each character, or of the number in the place of one. -/
  text_character : ∀ (i : Nat) (c : Char), line.toList[i]? = some c → text[i]? =
    some (CodePoint.ofWord (if data + i = length then (line.length : Int) else (c.toNat : Int)))
  /-- So it is the line, if this has no wide characters and the number is outside the buffer. -/
  text_eq : (∀ c ∈ line.toList, c.toNat < 0x10000) →
    (length < data ∨ data + line.length ≤ length) → text = CodePoint.ofString line

/-- **Echo.** A call that takes a line and a call behind it that puts out the same buffer take one
line and put out one text, with the low sixteen bits of each character of the line. -/
theorem echoed_of_echoes {m : Machine Buffer} {data length : Int} {line : String}
    {queue : List String} (h : m.Echoes data length line queue) :
    ∃ a b text, m.step = (.ok (.went 3), a) ∧ a.step = (.ok (.went 3), b) ∧
      m.Echoed data length line queue text b := by
  obtain ⟨memory, a, hs, ha⟩ :=
    exists_called_of_inputCall h.dispatch h.input h.queue h.data_nonneg h.length_nonneg
  have hcounter : a.registers.counter = m.registers.counter + 3 := by rw [ha.registers]
  -- the second call is still there, since nothing is stored over it
  have houtput : a.memory.CallAt a.registers.counter outputSubtype data length := by
    rw [hcounter, ha.memory]
    apply h.output.of_get?
    intro c hlo hhi
    apply hs.outside
    · have hlength := h.length_apart
      omega
    · by_contra hin
      have hdata := h.data_apart (c - data).toNat (by omega)
      omega
  obtain ⟨b, hb⟩ := exists_called_of_outputCall (ha.dispatch ▸ h.dispatch) houtput (ha.memory ▸ hs)
  refine ⟨a, b, echoText data length line, ha.step, hb.step, ?_⟩
  constructor
  case registers =>
    rw [hb.registers, ha.registers, Int.add_assoc]
    rfl
  case memory => rwa [hb.memory, ha.memory]
  case terminal =>
    rw [hb.terminal, ha.terminal]
    rfl
  case dispatch => rw [hb.dispatch, ha.dispatch]
  case text_length => exact length_echoText
  case text_character => exact fun i c hc => getElem?_echoText hc
  case text_eq => exact echoText_eq_ofString

/-- A program that takes a line to the addresses of the call by which it does, and puts it out. -/
def selfOverwriting : Machine Buffer where
  memory := ((∅ : Memory).load [0xF001, 0, 1, 0xF002, 0, 1] 0).2
  terminal := { queue := ["ab", "c"] }

theorem echoed_selfOverwriting :
    ∃ a b text, selfOverwriting.step = (.ok (.went 3), a) ∧ a.step = (.ok (.went 3), b) ∧
      selfOverwriting.Echoed 0 1 "ab" ["c"] text b := by
  apply echoed_of_echoes
  constructor
  case dispatch => decide +kernel
  case input => constructor <;> decide +kernel
  case output => constructor <;> decide +kernel
  case data_nonneg => decide
  case length_nonneg => decide
  case queue => rfl
  case data_apart => decide +kernel
  case length_apart => decide +kernel

end Machine

end WordMachine
