import WordMachine.Proofs.Lockstep
import WordMachine.Proofs.Tracing

/-!
# Words that were never written

Memory reads as zero where no word was written, and it also keeps the zeros that were written. A
program sees no difference: instructions reach memory only by reading and writing words, and the
machine decides nothing by which words there are. So two machines that differ in the written zeros
only can be used in the same way for ever, with the same results and the same output.

## Main definitions

* `Memory.ReadsAs`: one memory reads everywhere as another
* `Machine.Twin`: two machines that a program cannot tell apart
* `Use`, `Answer`, `Bench.use`, `Bench.uses`: what is done with a machine, and what comes of it

## Main results

* `Machine.Twin.readsAlike`: whatever an operation reads is the same on such machines
* `Machine.Twin.step`, `Machine.Twin.run`: one step, and a whole run
* `Bench.uses_twin`: any sequence of uses
-/

namespace WordMachine

/-! ## Memory -/

namespace Memory

/-- A memory that reads everywhere as another one does. -/
def ReadsAs (m n : Memory) : Prop :=
  ∀ a, n.read a = m.read a

/-- To write a zero where zero is read changes nothing that is read. -/
theorem readsAs_write {m n : Memory} {a : Int} (h : m.write a 0 = .ok n) (hzero : m.read a = 0) :
    m.ReadsAs n := by
  intro b
  rw [read_write h]
  split
  · next hb => rw [hb, hzero]
  · rfl

/-- Memories that read alike still do when the same word is written in them. -/
theorem keptByWrites_readsAs : KeptByWrites ReadsAs := by
  intro m n m' n' a w h hm hn b
  rw [read_write hm, read_write hn, h b]

end Memory

/-! ## The core -/

namespace Core

/-- Two cores that differ at most in zeros which were written to memory. -/
structure Twin (c d : Core) : Prop where
  /-- Memory reads alike everywhere. -/
  memory : c.memory.ReadsAs d.memory
  /-- The registers are the same. -/
  registers : d.registers = c.registers

theorem twin_iff {c d : Core} : c.Twin d ↔ c.Paired Memory.ReadsAs d :=
  ⟨fun h => ⟨h.memory, h.registers⟩, fun h => ⟨h.memory, h.registers⟩⟩

namespace Twin

variable {c d : Core} (h : c.Twin d)
include h

theorem word_eq : d.word = c.word := by
  rw [word, word, h.registers, h.memory]

theorem opcode_eq : d.opcode = c.opcode := by
  rw [opcode, opcode, h.word_eq]

theorem second_eq : d.second = c.second := by
  rw [second, second, h.word_eq]

theorem effectiveAddress_eq : d.effectiveAddress = c.effectiveAddress := by
  have hword : d.addressWord = c.addressWord := by
    rw [addressWord, addressWord, h.registers, h.memory]
  rw [effectiveAddress, effectiveAddress, h.second_eq, hword, (twin_iff.mp h).register_eq]

theorem secondOperand_eq (form : Form) : d.secondOperand form = c.secondOperand form := by
  cases form with
  | register => rw [secondOperand, secondOperand, h.second_eq, (twin_iff.mp h).register_eq]
  | address =>
    have hread : d.memory.read = c.memory.read := funext h.memory
    rw [secondOperand, secondOperand, h.effectiveAddress_eq, hread]

/-- Whatever an action reads is the same. -/
theorem readsAlike (a : Action) : a.ReadsAlike c d where
  first := by rw [first, first, h.word_eq]
  address := h.effectiveAddress_eq
  operand form _ := h.secondOperand_eq form

end Twin

end Core

/-! ## The machine -/

namespace Machine

variable {σ : Type}

/-- Two machines that a program cannot tell apart: they differ at most in zeros which were written
to memory. -/
structure Twin (m n : Machine σ) : Prop where
  /-- Memory reads alike, and the registers are the same. -/
  core : m.toCore.Twin n.toCore
  /-- The terminals are the same. -/
  terminal : n.terminal = m.terminal
  /-- The operations are the same. -/
  dispatch : n.dispatch = m.dispatch
  /-- Both are traced, or neither. -/
  tracing : n.tracing = m.tracing
  /-- The traces are the same. -/
  trace : n.trace = m.trace

/-- Two answers of machines that a program cannot tell apart: the results are the same, and so are
the machines for a program. -/
structure TwinResults {α : Type} (x y : α × Machine σ) : Prop where
  /-- The results are the same. -/
  result : y.1 = x.1
  /-- The machines cannot be told apart. -/
  twin : x.2.Twin y.2

theorem twin_iff {m n : Machine σ} : m.Twin n ↔ m.Paired Memory.ReadsAs n :=
  ⟨fun h => ⟨Core.twin_iff.mp h.core, h.terminal, h.dispatch, h.tracing, h.trace⟩,
    fun h => ⟨Core.twin_iff.mpr h.core, h.terminal, h.dispatch, h.tracing, h.trace⟩⟩

namespace Twin

variable {m n : Machine σ} (h : m.Twin n)
include h

/-- Whatever an operation reads is the same. -/
theorem readsAlike (operation : Operation) : m.ReadsAlike n operation := by
  have hread : n.memory.read = m.memory.read := funext h.core.memory
  cases operation with
  | action a => exact h.core.readsAlike a
  | supervisor =>
    refine ⟨h.core.second_eq, ?_, ?_, fun _ => ?_⟩ <;>
      simp only [outputText, lengthAddress, dataAddress, h.core.registers, hread]

theorem startAt (address : Int) : (m.startAt address).Twin (n.startAt address) := by
  refine ⟨⟨h.core.memory, ?_⟩, h.terminal, h.dispatch, h.tracing, h.trace⟩
  simp only [Machine.startAt, h.core.registers]

variable [Terminal σ]

/-- One instruction. -/
theorem step : TwinResults m.step n.step := by
  have hpaired := (twin_iff.mp h).step Memory.keptByWrites_readsAs h.core.opcode_eq
    fun operation _ => h.readsAlike operation
  exact ⟨hpaired.result, twin_iff.mpr hpaired.machine⟩

/-- A whole run: with the same fuel both have an outcome or neither has. -/
theorem run (limit : Option Int) (fuel executed : Nat) :
    Option.Rel TwinResults (Machine.run limit fuel executed m)
      (Machine.run limit fuel executed n) := by
  -- Induction on the fuel: the runs take each instruction in the same way.
  induction fuel generalizing m n executed with
  | zero => exact .none
  | succ fuel ih =>
    have hstop : mustStop limit executed n = mustStop limit executed m := by
      rw [mustStop, mustStop, h.core.opcode_eq]
    rw [Machine.run, Machine.run, hstop, h.core.registers]
    split
    · exact .some ⟨rfl, h⟩
    · obtain ⟨hresult, htwin⟩ := h.step
      generalize m.step = x at hresult htwin
      generalize n.step = y at hresult htwin
      obtain ⟨result, m'⟩ := x
      obtain ⟨result', n'⟩ := y
      obtain rfl : result' = result := hresult
      rcases result' with fault | _ | words
      · exact .some ⟨rfl, htwin⟩
      · exact .some ⟨rfl, htwin⟩
      · exact ih htwin (executed + 1)

end Twin

end Machine

/-- A step of a session. -/
theorem Session.step_twin {σ : Type} [Terminal σ] (s : Session) {m n : Machine σ}
    (h : m.Twin n) : (s.step n).1 = (s.step m).1 ∧ (s.step n).2.1 = (s.step m).2.1 ∧
      (s.step m).2.2.Twin (s.step n).2.2 := by
  rw [step, step]
  split
  · obtain ⟨hresult, htwin⟩ := h.step
    generalize m.step = x at hresult htwin
    generalize n.step = y at hresult htwin
    obtain ⟨result, m'⟩ := x
    obtain ⟨result', n'⟩ := y
    obtain rfl : result' = result := hresult
    rcases result' with fault | _ | words
    · cases fault <;> exact ⟨rfl, rfl, htwin⟩
    · exact ⟨rfl, rfl, htwin⟩
    · exact ⟨rfl, rfl, htwin⟩
  · exact ⟨rfl, rfl, h⟩

/-! ## Uses of a machine -/

/-- What can be done with a machine and its sessions. -/
inductive Use where
  /-- The machine takes a step. -/
  | step
  /-- It runs from an address, perhaps under a limit. -/
  | execute (begin : Int) (limit : Option Int) (fuel : Nat)
  /-- A session is opened at an address. -/
  | openSession (begin : Int)
  /-- One of the sessions takes a step. -/
  | stepSession (index : Nat)
  /-- A line of input arrives. -/
  | feed (line : String)
  /-- A general register is set. -/
  | setRegister (index w : Int)
  /-- The program counter is set. -/
  | setCounter (address : Int)
  /-- The flags are set. -/
  | setFlags (flags : Flags)
  /-- A word is written to memory. -/
  | write (address w : Int)
  /-- From now on steps are traced, or no more. -/
  | setTracing (tracing : Bool)
  /-- The trace is cleared. -/
  | clearTrace
deriving DecidableEq, Repr

/-- What a use of a machine answers. -/
inductive Answer where
  /-- What a step has done. -/
  | stepped (result : Except Fault Progress)
  /-- How a run has ended; it has not if the fuel did not suffice. -/
  | ran (result : Option (Except Fault Nat))
  /-- Whether the program of a session is still running; there is no answer without a session. -/
  | told (result : Option (Except Fault Bool))
  /-- Whether a register or a word could be set. -/
  | edited (result : Except Fault Unit)

/-- The core with given flags. -/
def Core.setFlags (c : Core) (flags : Flags) : Core :=
  { c with registers := { c.registers with flags } }

namespace Bench

/-- The bench with an edited core, if the edit succeeds. -/
def edit (b : Bench Buffer) : Except Fault Core → Answer × Bench Buffer
  | .ok core => (.edited (.ok ()), { b with machine := { b.machine with toCore := core } })
  | .error fault => (.edited (.error fault), b)

/-- What a use of a machine answers, and the machine with its sessions behind it. -/
def use (b : Bench Buffer) : Use → Answer × Bench Buffer
  | .step => (.stepped b.machine.step.1, { b with machine := b.machine.step.2 })
  | .execute begin limit fuel =>
    match b.machine.execute begin limit fuel with
    | none => (.ran none, b)
    | some (result, machine) => (.ran (some result), { b with machine })
  | .openSession begin =>
    (.edited (.ok ()), { machine := b.machine.startAt begin, sessions := b.sessions ++ [{}] })
  | .stepSession index =>
    match b.sessions[index]? with
    | none => (.told none, b)
    | some s =>
      let (result, session, machine) := s.step b.machine
      (.told (some result), { machine, sessions := b.sessions.set index session })
  | .feed line =>
    (.edited (.ok ()),
      { b with machine := { b.machine with terminal := b.machine.terminal.feed line } })
  | .setRegister index w => b.edit (b.machine.toCore.setRegister index w)
  | .setCounter address => b.edit (.ok (b.machine.toCore.withCounter address))
  | .setFlags flags => b.edit (.ok (b.machine.toCore.setFlags flags))
  | .write address w => b.edit (b.machine.toCore.store address w)
  | .setTracing tracing => (.edited (.ok ()), { b with machine := { b.machine with tracing } })
  | .clearTrace => (.edited (.ok ()), { b with machine := { b.machine with trace := #[] } })

/-- What each of some uses in turn answers, and the machine with its sessions behind it. -/
def uses (b : Bench Buffer) : List Use → List (Answer × Bench Buffer)
  | [] => []
  | u :: us => b.use u :: (b.use u).2.uses us

/-- Two benches that a program cannot tell apart. -/
structure Twin (b c : Bench Buffer) : Prop where
  /-- Their machines cannot be told apart. -/
  machine : b.machine.Twin c.machine
  /-- The sessions are the same. -/
  sessions : c.sessions = b.sessions

/-- Two benches behind the same use: the answers are the same, and a program still cannot tell the
benches apart. -/
structure TwinAnswers (x y : Answer × Bench Buffer) : Prop where
  /-- The answers are the same. -/
  answer : y.1 = x.1
  /-- The benches cannot be told apart. -/
  twin : x.2.Twin y.2

variable {b c : Bench Buffer}

theorem edit_twin (h : b.Twin c) {x y : Except Fault Core}
    (hxy : EndsAlike (Core.Paired Memory.ReadsAs) x y) : TwinAnswers (b.edit x) (c.edit y) := by
  cases hxy with
  | ok hcore =>
    obtain ⟨⟨-, hterminal, hdispatch, htracing, htrace⟩, hsessions⟩ := h
    exact ⟨rfl, ⟨Core.twin_iff.mpr hcore, hterminal, hdispatch, htracing, htrace⟩, hsessions⟩
  | error fault => exact ⟨rfl, h⟩

/-- One use of two benches that a program cannot tell apart. -/
theorem use_twin (h : b.Twin c) (u : Use) : TwinAnswers (b.use u) (c.use u) := by
  have hmachine := h.machine
  have hcore := Core.twin_iff.mp hmachine.core
  cases u with
  | step =>
    obtain ⟨hresult, htwin⟩ := hmachine.step
    exact ⟨congrArg Answer.stepped hresult, htwin, h.sessions⟩
  | execute begin limit fuel =>
    have hrun := (hmachine.startAt begin).run limit fuel 0
    simp only [use, Machine.execute]
    generalize (b.machine.startAt begin).run limit fuel 0 = x at hrun
    generalize (c.machine.startAt begin).run limit fuel 0 = y at hrun
    cases hrun with
    | none => exact ⟨rfl, h⟩
    | some hxy => exact ⟨congrArg (Answer.ran ∘ some) hxy.result, hxy.twin, h.sessions⟩
  | openSession begin =>
    refine ⟨rfl, hmachine.startAt begin, ?_⟩
    simp only [use, h.sessions]
  | stepSession index =>
    rw [use, use, h.sessions]
    cases b.sessions[index]? with
    | none => exact ⟨rfl, h⟩
    | some s =>
      obtain ⟨hresult, hsession, htwin⟩ := s.step_twin hmachine
      exact ⟨congrArg (Answer.told ∘ some) hresult, htwin,
        congrArg (b.sessions.set index) hsession⟩
  | feed line =>
    refine ⟨rfl, ⟨hmachine.core, ?_, hmachine.dispatch, hmachine.tracing, hmachine.trace⟩,
      h.sessions⟩
    exact congrArg (Buffer.feed · line) hmachine.terminal
  | setRegister index w => exact edit_twin h (hcore.setRegister index w)
  | setCounter address => exact edit_twin h (.ok (hcore.withCounter address))
  | setFlags flags =>
    have hflags : (b.machine.toCore.setFlags flags).Paired Memory.ReadsAs
        (c.machine.toCore.setFlags flags) := by
      refine ⟨hmachine.core.memory, ?_⟩
      rw [Core.setFlags, Core.setFlags, hmachine.core.registers]
    exact edit_twin h (.ok hflags)
  | write address w => exact edit_twin h (hcore.store Memory.keptByWrites_readsAs address w)
  | setTracing tracing =>
    exact ⟨rfl, ⟨hmachine.core, hmachine.terminal, hmachine.dispatch, rfl, hmachine.trace⟩,
      h.sessions⟩
  | clearTrace =>
    exact ⟨rfl, ⟨hmachine.core, hmachine.terminal, hmachine.dispatch, hmachine.tracing, rfl⟩,
      h.sessions⟩

/-- **Zeros and unwritten words.** Two machines whose memories read alike, and that are the same
otherwise, answer all uses in the same way, whatever is done with them; after each use they show the
same registers, terminal and trace, and their memories still read alike. -/
theorem uses_twin (h : b.Twin c) (us : List Use) :
    List.Forall₂ TwinAnswers (b.uses us) (c.uses us) := by
  induction us generalizing b c with
  | nil => exact .nil
  | cons u us ih =>
    have hfirst := use_twin h u
    exact .cons hfirst (ih hfirst.twin)

/-- The machine of `waiting`, with a zero written behind its program. -/
def waitingBeforeZero : Bench Buffer :=
  { waiting with
    machine := { waiting.machine with memory := (waiting.machine.memory.load [0] 4).2 } }

/-- A session that waits, is fed a line and goes on, on machines that hold four words and five; the
zero is overwritten, and the program runs again. -/
theorem uses_twin_waiting :
    waiting.Twin waitingBeforeZero ∧ waiting.machine.memory.size = 4 ∧
      waitingBeforeZero.machine.memory.size = 5 ∧
      List.Forall₂ TwinAnswers
        (waiting.uses [.openSession 0, .stepSession 0, .feed "ab", .stepSession 0, .write 4 7,
          .setRegister 9 0, .execute 0 (some 2) 3])
        (waitingBeforeZero.uses [.openSession 0, .stepSession 0, .feed "ab", .stepSession 0,
          .write 4 7, .setRegister 9 0, .execute 0 (some 2) 3]) := by
  have hreads : waiting.machine.memory.ReadsAs waitingBeforeZero.machine.memory :=
    Memory.readsAs_write (a := 4) rfl (by decide +kernel)
  have htwin : waiting.Twin waitingBeforeZero := ⟨⟨⟨hreads, rfl⟩, rfl, rfl, rfl, rfl⟩, rfl⟩
  exact ⟨htwin, by decide +kernel, by decide +kernel, uses_twin htwin _⟩

end Bench

end WordMachine
