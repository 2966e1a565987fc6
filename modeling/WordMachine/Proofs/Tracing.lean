import WordMachine.Machine.Session
import WordMachine.Proofs.Runs
import WordMachine.Proofs.Sequence

/-!
# Traces

A machine whose steps are traced notes an instruction when it begins it, and counts the instruction
when it is executed. In between the instruction may fail, or wait for a line of input and be begun
again later. So the trace has one line for each instruction that was begun, and these are more than
the instructions executed by those that failed or waited.

## Main definitions

* `Machine.begins`, `Machine.executes`: whether a step begins an instruction, and executes it
* `Bench`, `Bench.History`: a machine with its sessions, and what has been done with it
* `Machine.Traced`: what is in the trace and in the counter after some steps

## Main results

* `Machine.traced_step`: one step notes what it begins and counts what it executes
* `Machine.traced_of_run`: so does a run
* `Bench.traced_of_history`: so does any use of a machine, and when the trace shows just the
  instructions executed
-/

namespace WordMachine

/-! ## Registers -/

namespace Core

variable {c d : Core}

/-- To set a general register changes the general registers at most. -/
theorem exists_general_of_setRegister {index w : Int} (h : c.setRegister index w = .ok d) :
    ∃ general, d = { c with registers := { c.registers with general } } := by
  unfold setRegister at h
  split at h
  · next registers hset =>
    obtain rfl : _ = d := Except.ok.inj h
    unfold Registers.set? at hset
    split at hset
    · obtain rfl : _ = registers := Option.some.inj hset
      exact ⟨_, rfl⟩
    · cases hset
  · cases h

theorem registers_of_store {address w : Int} (h : c.store address w = .ok d) :
    d.registers = c.registers := by
  unfold store at h
  split at h
  · obtain rfl : _ = d := Except.ok.inj h
    rfl
  · cases h

end Core

/-- How the registers `r'` come out of an action that found them as `r`. -/
structure Registers.Acted (r r' : Registers) : Prop where
  /-- An action does not count itself. -/
  steps : r'.steps = r.steps
  /-- It leaves the flags as they are or has them summarise a result. -/
  flags : r'.flags = r.flags ∨ ∃ w, r'.flags = Flags.ofResult w

/-- What an action that succeeds may do to the counter of instructions and to the flags. -/
theorem Action.acted_of_run {a : Action} {c d : Core} {n : Nat} (h : a.run c = .ok (d, n)) :
    c.registers.Acted d.registers := by
  cases a with
  | nothing =>
    cases h
    exact ⟨rfl, .inl rfl⟩
  | load form =>
    obtain ⟨w, -, h⟩ := bind_eq_ok h
    obtain ⟨e, he, h⟩ := bind_eq_ok h
    obtain ⟨general, rfl⟩ := Core.exists_general_of_setRegister he
    cases h
    exact ⟨rfl, .inr ⟨w, rfl⟩⟩
  | store =>
    obtain ⟨address, -, h⟩ := bind_eq_ok h
    obtain ⟨w, -, h⟩ := bind_eq_ok h
    obtain ⟨e, he, h⟩ := bind_eq_ok h
    have hregisters := Core.registers_of_store he
    cases h
    exact ⟨congrArg Registers.steps hregisters, .inl (congrArg Registers.flags hregisters)⟩
  | loadAddress =>
    obtain ⟨address, -, h⟩ := bind_eq_ok h
    obtain ⟨e, he, h⟩ := bind_eq_ok h
    obtain ⟨general, rfl⟩ := Core.exists_general_of_setRegister he
    cases h
    exact ⟨rfl, .inl rfl⟩
  | compute operation form =>
    obtain ⟨v, -, h⟩ := bind_eq_ok h
    obtain ⟨w, -, h⟩ := bind_eq_ok h
    obtain ⟨e, he, h⟩ := bind_eq_ok h
    obtain ⟨general, rfl⟩ := Core.exists_general_of_setRegister he
    cases h
    exact ⟨rfl, .inr ⟨operation.eval v w, rfl⟩⟩
  | compare form =>
    obtain ⟨v, -, h⟩ := bind_eq_ok h
    obtain ⟨w, -, h⟩ := bind_eq_ok h
    cases h
    exact ⟨rfl, .inr ⟨v - w, rfl⟩⟩
  | jump condition =>
    rw [run] at h
    split at h
    · obtain ⟨address, -, h⟩ := bind_eq_ok h
      cases h
      exact ⟨rfl, .inl rfl⟩
    · cases h
      exact ⟨rfl, .inl rfl⟩

namespace Machine

variable {σ : Type}

/-! ## One step -/

/-- What an operation leaves as it is: the trace and, if it fails or not, the counter of
instructions. -/
structure Unnoted (m m' : Machine σ) : Prop where
  trace : m'.trace = m.trace
  tracing : m'.tracing = m.tracing
  steps : m'.registers.steps = m.registers.steps

theorem unnoted_act (m : Machine σ) (a : Action) : Unnoted m (m.act a).2 := by
  unfold act
  split
  · next h => exact ⟨rfl, rfl, (Action.acted_of_run h).steps⟩
  · exact ⟨rfl, rfl, rfl⟩

theorem trace_noteTrace {m : Machine σ} (ht : m.tracing = true) :
    m.noteTrace.trace.toList = m.trace.toList ++ [m.traceLine] := by
  simp [noteTrace, ht]

variable [Terminal σ]

theorem unnoted_supervisorCall (m : Machine σ) : Unnoted m m.supervisorCall.2 := by
  unfold supervisorCall
  split
  · unfold input
    split
    · exact ⟨rfl, rfl, rfl⟩
    · split <;> exact ⟨rfl, rfl, rfl⟩
  · split
    · unfold output
      split <;> exact ⟨rfl, rfl, rfl⟩
    · exact ⟨rfl, rfl, rfl⟩

/-- An operation notes and counts nothing. -/
theorem unnoted_perform (m : Machine σ) (operation : Operation) :
    Unnoted m (m.perform operation).2 := by
  cases operation with
  | action a => exact m.unnoted_act a
  | supervisor => exact m.unnoted_supervisorCall

omit [Terminal σ] in
/-- Whether a step begins an instruction: the program does not end there, and there is an
operation. -/
def begins (m : Machine σ) : Bool :=
  m.opcode != returnOpcode && (m.dispatch m.opcode).isSome

/-- Whether a step executes an instruction. -/
def executes (m : Machine σ) : Bool :=
  match m.step.1 with
  | .ok (.went _) => true
  | _ => false

theorem begins_of_executes {m : Machine σ} (h : m.executes = true) : m.begins = true := by
  unfold executes at h
  have hcases := m.stepCases
  generalize m.step = r at h hcases
  cases hcases with
  | went hret hd hp => simp [begins, hret, hd]
  | _ => cases h

/-- Whether a step begins an instruction and does not execute it. -/
def breaksOff (m : Machine σ) : Bool :=
  m.begins && !m.executes

/-- A step that does not execute the instruction it begins has failed, or waits for input. -/
theorem exists_fault_of_breaksOff {m : Machine σ} (h : m.breaksOff = true) :
    ∃ fault, m.step.1 = .error fault := by
  obtain ⟨h, he⟩ := Bool.and_eq_true_iff.mp h
  unfold executes at he
  have hcases := m.stepCases
  generalize m.step = r at he hcases ⊢
  cases hcases with
  | ended hret => simp [begins, hret] at h
  | went hret hd hp => cases he
  | unknown hret hd => exact ⟨_, rfl⟩
  | failed hret hd hp => exact ⟨_, rfl⟩

/-- Of the instructions that were begun, all are executed but those that broke off. -/
theorem countP_begins (taken : List (Machine σ)) :
    taken.countP begins = taken.countP executes + taken.countP breaksOff := by
  induction taken with
  | nil => rfl
  | cons m taken ih =>
    simp only [List.countP_cons, ih]
    cases he : m.executes with
    | true =>
      have hb : m.breaksOff = false := by simp [breaksOff, he]
      simp only [begins_of_executes he, hb, if_true, Bool.false_eq_true, if_false]
      omega
    | false =>
      have hb : m.breaksOff = m.begins := by simp [breaksOff, he]
      simp only [hb, Bool.false_eq_true, if_false]
      omega

/-- What is in the trace and in the counter of instructions after some steps of a machine that is
traced: a line for each instruction that was begun, and one for each that was executed. -/
structure Traced (m : Machine σ) (taken : List (Machine σ)) (m' : Machine σ) : Prop where
  /-- Steps are still traced. -/
  tracing : m'.tracing = true
  /-- The machine at each beginning of an instruction has left its line. -/
  trace : m'.trace.toList = m.trace.toList ++ (taken.filter begins).map traceLine
  /-- The instructions executed are counted. -/
  steps : m'.registers.steps = m.registers.steps + taken.countP executes

theorem Traced.refl {m : Machine σ} (ht : m.tracing = true) : Traced m [] m :=
  ⟨ht, (List.append_nil _).symm, rfl⟩

theorem Traced.trans {m a b : Machine σ} {xs ys : List (Machine σ)} (h : Traced m xs a)
    (h' : Traced a ys b) : Traced m (xs ++ ys) b where
  tracing := h'.tracing
  trace := by
    rw [h'.trace, h.trace, List.filter_append, List.map_append, List.append_assoc]
  steps := by
    rw [h'.steps, h.steps, List.countP_append, Nat.add_assoc]

/-- An operation is noted before it is performed, and performing it notes and counts nothing. -/
theorem noted_perform {m n : Machine σ} {operation : Operation} {result : Except Fault Nat}
    (ht : m.tracing = true) (hp : m.noteTrace.perform operation = (result, n)) :
    n.tracing = true ∧ n.trace.toList = m.trace.toList ++ [m.traceLine] ∧
      n.registers.steps = m.registers.steps := by
  obtain ⟨htrace, htracing, hsteps⟩ := m.noteTrace.unnoted_perform operation
  rw [hp] at htrace htracing hsteps
  rw [noteTrace_toCore] at hsteps
  rw [noteTrace_tracing] at htracing
  exact ⟨htracing.trans ht, (congrArg Array.toList htrace).trans (trace_noteTrace ht), hsteps⟩

/-- A step notes what it begins and counts what it executes. -/
theorem traced_step {m : Machine σ} (ht : m.tracing = true) : Traced m [m] m.step.2 := by
  have hb : m.executes = (match m.step.1 with | .ok (.went _) => true | _ => false) := rfl
  have hcases := m.stepCases
  generalize m.step = r at hb hcases ⊢
  cases hcases with
  | ended hret =>
    have hn : m.begins = false := by simp [begins, hret]
    exact ⟨ht, by simp [hn], by simp [hb]⟩
  | unknown hret hd =>
    have hn : m.begins = false := by simp [begins, hd]
    exact ⟨ht, by simp [hn], by simp [hb]⟩
  | went hret hd hp =>
    have hy : m.begins = true := by simp [begins, hret, hd]
    obtain ⟨htracing, htrace, hsteps⟩ := noted_perform ht hp
    refine ⟨htracing, by rwa [List.filter_cons_of_pos hy], ?_⟩
    -- the step itself counts the instruction
    rw [List.countP_singleton, hb, if_pos rfl]
    exact congrArg (· + 1) hsteps
  | failed hret hd hp =>
    have hy : m.begins = true := by simp [begins, hret, hd]
    obtain ⟨htracing, htrace, hsteps⟩ := noted_perform ht hp
    refine ⟨htracing, by rwa [List.filter_cons_of_pos hy], ?_⟩
    rw [List.countP_singleton, hb, if_neg Bool.false_ne_true]
    exact hsteps

/-! ## Runs -/

/-- A run notes what it begins and counts what it executes. -/
theorem traced_of_run {limit : Option Int} {fuel executed : Nat} {m m' : Machine σ}
    {result : Except Fault Nat} (ht : m.tracing = true)
    (h : run limit fuel executed m = some (result, m')) :
    Traced m (course limit fuel executed m) m' := by
  have hrun := related_of_run (R := fun m taken m' => m.tracing = true → Traced m taken m')
    (fun _ => Traced.refl) (fun _ => traced_step)
    (fun h h' ht => (h ht).trans (h' (h ht).tracing)) h
  exact hrun ht

end Machine

/-! ## Uses of a machine -/

/-- A machine with the sessions that were opened on it. -/
structure Bench (σ : Type) where
  /-- The machine. -/
  machine : Machine σ
  /-- The sessions. -/
  sessions : List Session := []

namespace Bench

variable {σ : Type} [Terminal σ]

/-- What has been done with a machine: uses of `b` in turn have led to `c`, and `taken` are the
machines at the steps on the way. -/
inductive History (b : Bench σ) : List (Machine σ) → Bench σ → Prop
  /-- Nothing was done. -/
  | start : History b [] b
  /-- The machine took a step. -/
  | step {taken : List (Machine σ)} {c : Bench σ} (h : History b taken c) :
      History b (taken ++ [c.machine]) { c with machine := c.machine.step.2 }
  /-- A run has ended, regularly or not. -/
  | execute {taken : List (Machine σ)} {c : Bench σ} (h : History b taken c) {begin : Int}
      {limit : Option Int} {fuel : Nat} {result : Except Fault Nat} {m : Machine σ}
      (hrun : c.machine.execute begin limit fuel = some (result, m)) :
      History b (taken ++ Machine.course limit fuel 0 (c.machine.startAt begin))
        { c with machine := m }
  /-- A session was opened. -/
  | openSession {taken : List (Machine σ)} {c : Bench σ} (h : History b taken c) (begin : Int) :
      History b taken { machine := c.machine.startAt begin, sessions := c.sessions ++ [{}] }
  /-- One of the sessions took a step, which is one of the machine unless the session has ended. -/
  | stepSession {taken : List (Machine σ)} {c : Bench σ} (h : History b taken c) {i : Nat}
      {s : Session} (hs : c.sessions[i]? = some s) :
      History b (taken ++ if s.running then [c.machine] else [])
        { machine := (s.step c.machine).2.2
          sessions := c.sessions.set i (s.step c.machine).2.1 }
  /-- Input arrived at the terminal. -/
  | receive {taken : List (Machine σ)} {c : Bench σ} (h : History b taken c) (arrive : σ → σ) :
      History b taken
        { c with machine := { c.machine with terminal := arrive c.machine.terminal } }

end Bench

/-- The machine after a step of a session is that after its own step, unless the session has
ended. -/
theorem Session.machine_step {σ : Type} [Terminal σ] (s : Session) (m : Machine σ) :
    (s.step m).2.2 = if s.running then m.step.2 else m := by
  unfold step
  split
  · split <;> next h => rw [h]
  · rfl

namespace Bench

variable {σ : Type} [Terminal σ] {b c : Bench σ} {taken : List (Machine σ)}

theorem History.traced (h : History b taken c) (ht : b.machine.tracing = true) :
    Machine.Traced b.machine taken c.machine := by
  induction h with
  | start => exact .refl ht
  | step h ih => exact ih.trans (Machine.traced_step ih.tracing)
  | @execute taken c h begin limit fuel result m hrun ih =>
    have hstart : (c.machine.startAt begin).tracing = true := ih.tracing
    obtain ⟨htracing, htrace, hsteps⟩ := Machine.traced_of_run hstart hrun
    exact ih.trans ⟨htracing, htrace, hsteps⟩
  | openSession h begin ih => exact ⟨ih.tracing, ih.trace, ih.steps⟩
  | @stepSession taken c h i s hs ih =>
    rw [Session.machine_step]
    split
    · exact ih.trans (Machine.traced_step ih.tracing)
    · rw [List.append_nil]
      exact ih
  | receive h arrive ih => exact ⟨ih.tracing, ih.trace, ih.steps⟩

/-- **Traces.** However a machine that is traced is stepped, run and fed, its trace has a line for
each instruction that was begun, with the machine as it was at that beginning, and its counter
counts those that were executed. These are all if and only if none of them failed or waited for
input. -/
theorem traced_of_history (h : History b taken c) (ht : b.machine.tracing = true) :
    Machine.Traced b.machine taken c.machine ∧
      c.machine.trace.size + b.machine.registers.steps =
        b.machine.trace.size + c.machine.registers.steps + taken.countP Machine.breaksOff ∧
      (c.machine.trace.toList =
          b.machine.trace.toList ++ (taken.filter Machine.executes).map Machine.traceLine ↔
        ∀ m ∈ taken, m.breaksOff = false) ∧
      ∀ m ∈ taken, m.breaksOff = true → ∃ fault, m.step.1 = .error fault := by
  have htraced := h.traced ht
  have hcount := Machine.countP_begins taken
  refine ⟨htraced, ?_, ?_, fun m _ hm => Machine.exists_fault_of_breaksOff hm⟩
  · have hsize := congrArg List.length htraced.trace
    rw [List.length_append, List.length_map, ← List.countP_eq_length_filter, Array.length_toList,
      Array.length_toList] at hsize
    rw [hsize, htraced.steps]
    omega
  · rw [htraced.trace, List.append_cancel_left_eq]
    constructor
    · intro hlines
      -- as many instructions were begun as executed
      have hlength := congrArg List.length hlines
      rw [List.length_map, List.length_map, ← List.countP_eq_length_filter,
        ← List.countP_eq_length_filter] at hlength
      have hnone : taken.countP Machine.breaksOff = 0 := by omega
      intro m hm
      exact Bool.eq_false_iff.mpr (List.countP_eq_zero.mp hnone m hm)
    · intro hnone
      congr 1
      refine List.filter_congr ?_
      intro m hm
      have hb := hnone m hm
      cases he : m.executes with
      | true => exact Machine.begins_of_executes he
      | false => simpa [Machine.breaksOff, he] using hb

/-- A program that takes a line of input and ends, on a machine that is traced and has no line. -/
def waiting : Bench Buffer where
  machine :=
    { memory := ((∅ : Memory).load [0xF001, 10, 9, 0x8100] 0).2, terminal := {}, tracing := true }

/-- A session that waits, is fed a line and goes on. -/
theorem traced_waiting :
    ∃ taken c, History waiting taken c ∧ waiting.machine.tracing = true ∧
      Machine.Traced waiting.machine taken c.machine ∧ taken.countP Machine.breaksOff = 1 ∧
      c.machine.trace.size + waiting.machine.registers.steps =
        waiting.machine.trace.size + c.machine.registers.steps +
          taken.countP Machine.breaksOff := by
  have h := ((History.start (b := waiting)).openSession 0).stepSession (i := 0) rfl
  have h' := (h.receive (Buffer.feed · "ab")).stepSession (i := 0) rfl
  obtain ⟨htraced, hcount, -⟩ := traced_of_history h' rfl
  exact ⟨_, _, h', rfl, htraced, by decide +kernel, hcount⟩

/-- A call that waits for input leaves a line in the trace and is not executed; when it is begun
again it leaves another one. -/
theorem trace_of_waiting :
    ∃ taken c taken' c', History waiting taken c ∧ History waiting taken' c' ∧
      waiting.machine.tracing = true ∧ waiting.machine.trace = #[] ∧
      waiting.machine.registers.steps = 0 ∧
      c.machine.trace.size = 1 ∧ c.machine.registers.steps = 0 ∧
      c'.machine.trace.size = 2 ∧ c'.machine.registers.steps = 1 := by
  have h := ((History.start (b := waiting)).openSession 0).stepSession (i := 0) rfl
  have h' := (h.receive (Buffer.feed · "ab")).stepSession (i := 0) rfl
  refine ⟨_, _, _, _, h, h', rfl, rfl, rfl, ?_, ?_, ?_, ?_⟩ <;> decide +kernel

end Bench

end WordMachine
