import WordMachine.Proofs.Runs

/-!
# Machines in lockstep

An instruction reads memory at a few places, computes, and writes the same words wherever it has
read the same. So two machines that are the same but for their memories take an instruction in the
same way as soon as all that it reads is the same in both, whatever the memories are like elsewhere.
How the memories are related is a parameter: the relation only has to outlast writing one word in
both.

## Main definitions

* `EndsAlike`: two computations fail alike or have related results
* `Memory.KeptByWrites`: a relation between memories outlasts writing the same word in both
* `Core.Paired`, `Machine.Paired`: the memories are related, and all else is the same
* `Action.ReadsAlike`, `Machine.ReadsAlike`: all that an action or an operation reads is the same

## Main results

* `Action.run_paired`: an action does the same on two such cores
* `Machine.Paired.step`: a step does the same on two such machines
-/

namespace WordMachine

/-! ## Computations that may fail -/

/-- Two computations that fail with the same fault, or whose results are related. -/
inductive EndsAlike {ε α : Type} (R : α → α → Prop) : Except ε α → Except ε α → Prop
  /-- Both have a result. -/
  | ok {a b : α} (h : R a b) : EndsAlike R (.ok a) (.ok b)
  /-- Both fail. -/
  | error (e : ε) : EndsAlike R (.error e) (.error e)

section EndsAlike

variable {ε α β : Type} {R : α → α → Prop} {S : β → β → Prop} {x y : Except ε α}

theorem EndsAlike.bind (h : EndsAlike R x y) {f g : α → Except ε β}
    (hnext : ∀ {a b}, R a b → EndsAlike S (f a) (g b)) : EndsAlike S (x >>= f) (y >>= g) := by
  cases h with
  | ok h => exact hnext h
  | error e => exact .error e

/-- A computation may go on in two ways. -/
theorem EndsAlike.bind_same (x : Except ε α) {f g : α → Except ε β}
    (hnext : ∀ a, EndsAlike S (f a) (g a)) : EndsAlike S (x >>= f) (x >>= g) := by
  cases x with
  | ok a => exact hnext a
  | error e => exact .error e

end EndsAlike

/-! ## Memory -/

namespace Memory

/-- A relation between memories outlasts writing the same word in both. -/
def KeptByWrites (R : Memory → Memory → Prop) : Prop :=
  ∀ {m n m' n' : Memory} {a w : Int}, R m n → m.write a w = .ok m' → n.write a w = .ok n' → R m' n'

variable {m n : Memory}

/-- Which addresses can be written is the same for every memory. -/
theorem write_error_eq {e : NegativeAddress} {a w : Int} (h : m.write a w = .error e)
    (n : Memory) : n.write a w = .error e :=
  write_eq_error_iff.mpr (write_eq_error_iff.mp h)

variable {R : Memory → Memory → Prop} (hR : KeptByWrites R) (h : R m n)
include hR h

theorem KeptByWrites.write (a w : Int) : EndsAlike R (m.write a w) (n.write a w) := by
  cases hm : m.write a w with
  | error e =>
    rw [write_error_eq hm n]
    exact .error e
  | ok m' =>
    cases hn : n.write a w with
    | error e =>
      rw [write_error_eq hn m] at hm
      cases hm
    | ok n' => exact .ok (hR h hm hn)

/-- Words are written in both memories up to the same address. -/
theorem KeptByWrites.writeAll (cells : List (Int × Int)) :
    (n.writeAll cells).1 = (m.writeAll cells).1 ∧
      R (m.writeAll cells).2 (n.writeAll cells).2 := by
  induction cells generalizing m n with
  | nil => exact ⟨rfl, h⟩
  | cons cell cells ih =>
    obtain ⟨a, w⟩ := cell
    have hwrite := hR.write h a w
    rw [Memory.writeAll, Memory.writeAll]
    generalize m.write a w = x at hwrite
    generalize n.write a w = y at hwrite
    cases hwrite with
    | error e => exact ⟨rfl, h⟩
    | ok hnext => exact ih hnext

end Memory

/-! ## The core -/

/-- The form of the operand whose word an action uses. -/
def Action.operandForm? : Action → Option Form
  | load form | compute _ form | compare form => some form
  | nothing | store | loadAddress | jump _ => none

/-- All that an action reads is the same on two cores. -/
structure Action.ReadsAlike (a : Action) (c d : Core) : Prop where
  /-- The first register field. -/
  first : d.first = c.first
  /-- The effective address. -/
  address : d.effectiveAddress = c.effectiveAddress
  /-- The operand, of an action that uses one. -/
  operand (form : Form) : a.operandForm? = some form → d.secondOperand form = c.secondOperand form

namespace Core

variable {R : Memory → Memory → Prop}

/-- Two cores whose memories are related, and that are the same otherwise. -/
structure Paired (R : Memory → Memory → Prop) (c d : Core) : Prop where
  /-- The memories are related. -/
  memory : R c.memory d.memory
  /-- The registers are the same. -/
  registers : d.registers = c.registers

namespace Paired

variable {c d : Core} (h : c.Paired R d)
include h

theorem register_eq (index : Int) : d.register index = c.register index := by
  rw [register, register, h.registers]

theorem withFlags (result : Int) : (c.withFlags result).Paired R (d.withFlags result) :=
  ⟨h.memory, by rw [Core.withFlags, Core.withFlags, h.registers]⟩

theorem withCounter (address : Int) :
    (c.withCounter address).Paired R (d.withCounter address) :=
  ⟨h.memory, by rw [Core.withCounter, Core.withCounter, h.registers]⟩

theorem setRegister (index w : Int) :
    EndsAlike (Paired R) (c.setRegister index w) (d.setRegister index w) := by
  rw [Core.setRegister, Core.setRegister, h.registers]
  cases c.registers.set? index w with
  | none => exact .error _
  | some registers => exact .ok ⟨h.memory, rfl⟩

theorem store (hR : Memory.KeptByWrites R) (address w : Int) :
    EndsAlike (Paired R) (c.store address w) (d.store address w) := by
  have hwrite := hR.write h.memory address w
  rw [Core.store, Core.store]
  generalize c.memory.write address w = x at hwrite
  generalize d.memory.write address w = y at hwrite
  cases hwrite with
  | error e => exact .error _
  | ok hmemory => exact .ok ⟨hmemory, h.registers⟩

end Paired

end Core

variable {R : Memory → Memory → Prop}

/-- An action does the same where all that it reads is the same. -/
theorem Action.run_paired (hR : Memory.KeptByWrites R) {c d : Core} (h : c.Paired R d) {a : Action}
    (hreads : a.ReadsAlike c d) :
    EndsAlike (fun x y => x.1.Paired R y.1 ∧ y.2 = x.2) (a.run c) (a.run d) := by
  -- What an action computes comes from reading alone; what it changes, both cores change.
  cases a with
  | nothing => exact .ok ⟨h, rfl⟩
  | load form =>
    rw [run, run, hreads.operand form rfl, hreads.first]
    refine .bind_same _ fun w => ?_
    exact (h.setRegister _ w).bind fun h => .ok ⟨h.withFlags w, rfl⟩
  | store =>
    rw [run, run, hreads.address, hreads.first, h.register_eq]
    refine .bind_same _ fun address => .bind_same _ fun w => ?_
    exact (h.store hR address w).bind fun h => .ok ⟨h, rfl⟩
  | loadAddress =>
    rw [run, run, hreads.address, hreads.first]
    refine .bind_same _ fun address => ?_
    exact (h.setRegister _ address).bind fun h => .ok ⟨h, rfl⟩
  | compute operation form =>
    rw [run, run, hreads.first, h.register_eq, hreads.operand form rfl]
    refine .bind_same _ fun v => .bind_same _ fun w => ?_
    exact (h.setRegister _ _).bind fun h => .ok ⟨h.withFlags _, rfl⟩
  | compare form =>
    rw [run, run, hreads.first, h.register_eq, hreads.operand form rfl]
    refine .bind_same _ fun v => .bind_same _ fun w => ?_
    exact .ok ⟨h.withFlags _, rfl⟩
  | jump condition =>
    rw [run, run, h.registers]
    split
    · rw [hreads.address]
      refine .bind_same _ fun address => ?_
      exact .ok ⟨h.withCounter address, rfl⟩
    · exact .ok ⟨h, rfl⟩

/-! ## The machine -/

namespace Machine

variable {σ : Type} {m n : Machine σ}

/-- Two machines whose memories are related, and that are the same otherwise. -/
structure Paired (R : Memory → Memory → Prop) (m n : Machine σ) : Prop where
  /-- The memories are related, and the registers are the same. -/
  core : m.toCore.Paired R n.toCore
  /-- The terminals are the same. -/
  terminal : n.terminal = m.terminal
  /-- The operations are the same. -/
  dispatch : n.dispatch = m.dispatch
  /-- Both are traced, or neither. -/
  tracing : n.tracing = m.tracing
  /-- The traces are the same. -/
  trace : n.trace = m.trace

/-- Answers that are the same, of machines whose memories are related. -/
structure PairedResults (R : Memory → Memory → Prop) {α : Type} (x y : α × Machine σ) : Prop where
  /-- The results are the same. -/
  result : y.1 = x.1
  /-- The machines are the same but for their memories. -/
  machine : x.2.Paired R y.2

/-- All that a supervisor call reads is the same on two machines. -/
structure CallsAlike (m n : Machine σ) : Prop where
  /-- The sub-type. -/
  second : n.second = m.second
  /-- The address of the characters. -/
  data : n.dataAddress = m.dataAddress
  /-- The address of their number. -/
  length : n.lengthAddress = m.lengthAddress
  /-- The text, of a call that puts one out. -/
  text : m.second = outputSubtype → n.outputText = m.outputText

/-- All that an operation reads is the same on two machines. -/
def ReadsAlike (m n : Machine σ) : Operation → Prop
  | .action a => a.ReadsAlike m.toCore n.toCore
  | .supervisor => m.CallsAlike n

theorem ReadsAlike.noteTrace {operation : Operation} (h : m.ReadsAlike n operation) :
    m.noteTrace.ReadsAlike n.noteTrace operation := by
  cases operation with
  | action a =>
    rw [ReadsAlike, noteTrace_toCore, noteTrace_toCore]
    exact h
  | supervisor =>
    obtain ⟨hsecond, hdata, hlength, htext⟩ := h
    constructor <;>
      simpa only [dataAddress, lengthAddress, outputText, noteTrace_toCore] using ‹_›

namespace Paired

variable (h : m.Paired R n)
include h

theorem noteTrace (hopcode : n.opcode = m.opcode) : m.noteTrace.Paired R n.noteTrace := by
  have hline : n.traceLine = m.traceLine := by
    simp only [traceLine, hopcode, h.core.registers]
  refine ⟨?_, ?_, ?_, ?_, ?_⟩
  · rw [noteTrace_toCore, noteTrace_toCore]
    exact h.core
  · rw [noteTrace_terminal, noteTrace_terminal, h.terminal]
  · rw [noteTrace_dispatch, noteTrace_dispatch, h.dispatch]
  · rw [noteTrace_tracing, noteTrace_tracing, h.tracing]
  · rw [Machine.noteTrace, Machine.noteTrace, h.tracing]
    split
    · rw [h.trace, hline]
    · exact h.trace

theorem advance (address : Int) (words : Nat) :
    (m.advance address words).Paired R (n.advance address words) := by
  refine ⟨⟨h.core.memory, ?_⟩, h.terminal, h.dispatch, h.tracing, h.trace⟩
  simp only [Machine.advance, h.core.registers]

variable (hR : Memory.KeptByWrites R)
include hR

theorem act {a : Action} (hreads : a.ReadsAlike m.toCore n.toCore) :
    PairedResults R (m.act a) (n.act a) := by
  have hrun := Action.run_paired hR h.core hreads
  rw [Machine.act, Machine.act]
  generalize a.run m.toCore = x at hrun
  generalize a.run n.toCore = y at hrun
  cases hrun with
  | error fault => exact ⟨rfl, h⟩
  | @ok x y hxy =>
    obtain ⟨c, words⟩ := x
    obtain ⟨d, words'⟩ := y
    obtain ⟨hcore, rfl⟩ : c.Paired R d ∧ words' = words := hxy
    exact ⟨rfl, hcore, h.terminal, h.dispatch, h.tracing, h.trace⟩

variable [Terminal σ]

theorem input (hcalls : m.CallsAlike n) : PairedResults R m.input n.input := by
  rw [Machine.input, Machine.input, h.terminal, hcalls.data, hcalls.length]
  cases Terminal.request inputPrompt m.terminal with
  | none => exact ⟨rfl, h⟩
  | some reply =>
    obtain ⟨line, terminal⟩ := reply
    dsimp only
    -- the line is stored in both memories, up to the same address
    obtain ⟨hresult, hmemory⟩ :=
      hR.writeAll h.core.memory (lineWords m.dataAddress m.lengthAddress line)
    generalize m.memory.writeAll _ = x at hresult hmemory
    generalize n.memory.writeAll _ = y at hresult hmemory
    obtain ⟨result, memory⟩ := x
    obtain ⟨result', memory'⟩ := y
    obtain rfl : result' = result := hresult
    cases result' with
    | ok _ => exact ⟨rfl, ⟨hmemory, h.core.registers⟩, rfl, h.dispatch, h.tracing, h.trace⟩
    | error e => exact ⟨rfl, ⟨hmemory, h.core.registers⟩, rfl, h.dispatch, h.tracing, h.trace⟩

omit hR in
theorem output (htext : n.outputText = m.outputText) : PairedResults R m.output n.output := by
  rw [Machine.output, Machine.output, h.terminal, htext]
  cases Terminal.emit m.outputText m.terminal with
  | ok terminal => exact ⟨rfl, h.core, rfl, h.dispatch, h.tracing, h.trace⟩
  | error cause => exact ⟨rfl, h⟩

theorem perform {operation : Operation} (hreads : m.ReadsAlike n operation) :
    PairedResults R (m.perform operation) (n.perform operation) := by
  cases operation with
  | action a => exact h.act hR hreads
  | supervisor =>
    have hcalls : m.CallsAlike n := hreads
    rw [Machine.perform, Machine.perform, supervisorCall, supervisorCall, hcalls.second]
    split
    · exact h.input hR hcalls
    · split
      · next hout => exact h.output (hcalls.text hout)
      · exact ⟨rfl, h⟩

/-- A step does the same where all that its instruction reads is the same. -/
theorem step (hopcode : n.opcode = m.opcode)
    (hreads : ∀ operation ∈ m.dispatch m.opcode, m.ReadsAlike n operation) :
    PairedResults R m.step n.step := by
  rw [Machine.step, Machine.step, hopcode, h.dispatch, h.core.registers]
  split
  · exact ⟨rfl, h⟩
  · cases hd : m.dispatch m.opcode with
    | none => exact ⟨rfl, h⟩
    | some operation =>
      dsimp only
      obtain ⟨hresult, hmachine⟩ :=
        (h.noteTrace hopcode).perform hR (hreads operation hd).noteTrace
      generalize m.noteTrace.perform operation = x at hresult hmachine
      generalize n.noteTrace.perform operation = y at hresult hmachine
      obtain ⟨result, m'⟩ := x
      obtain ⟨result', n'⟩ := y
      obtain rfl : result' = result := hresult
      cases result' with
      | ok words => exact ⟨rfl, hmachine.advance _ words⟩
      | error fault => exact ⟨rfl, hmachine⟩

end Paired

end Machine

end WordMachine
