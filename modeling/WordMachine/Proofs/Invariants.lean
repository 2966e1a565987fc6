import WordMachine.Proofs.Exchanges
import WordMachine.Proofs.Tracing

/-!
# Invariants of the machine

However a machine is stepped, run, fed and traced, some things stay true of it: its flags summarise
a result, so of the three conditional jumps by sign just one would be taken; no word is stored below
zero; the counter counts the steps that executed an instruction; and no line of input is lost or
taken out of its order, and each that is taken leaves one prompt.

## Main definitions

* `Flags.IsSummary`: the flags of a positive result, of zero or of a negative one
* `Core.jumps`: an instruction is a jump that would be taken
* `Machine.received`: the line that a step takes
* `Bench.Sequel`: what has been done with a machine, with the lines that it was fed
* `Machine.Reached`: what holds of a machine after that

## Main results

* `Core.existsUnique_jumps`: by flags that summarise a result just one of three jumps is taken
* `Machine.kept_step`: one step keeps the invariants
* `Bench.Sequel.kept`: so does any use of the machine
* `Bench.reached_of_sequel`: what holds of a machine that has been used
-/

namespace WordMachine

/-! ## Flags -/

/-- The flags summarise a result: a positive one, zero or a negative one. -/
def Flags.IsSummary (f : Flags) : Prop :=
  f = ⟨0, 0, 0⟩ ∨ f = ⟨0, 0, 1⟩ ∨ f = ⟨0, 1, 0⟩

theorem Flags.isSummary_ofResult (w : Int) : (ofResult w).IsSummary := by
  unfold ofResult
  split
  · exact .inl rfl
  · split
    · exact .inr (.inl rfl)
    · exact .inr (.inr rfl)

namespace Core

/-- An instruction is a jump that would be taken. -/
def jumps (c : Core) (k : Mnemonic) : Bool :=
  match k.operation? .address with
  | some (.action (.jump condition)) => condition.holds c.registers.flags
  | _ => false

/-- By flags that summarise a result just one of the jumps by sign would be taken. -/
theorem existsUnique_jumps {c : Core} (h : c.registers.flags.IsSummary) :
    ∃! k, k ∈ [Mnemonic.jmi, .jze, .jpl] ∧ c.jumps k = true := by
  have hunique (taken : Mnemonic) (hmem : taken ∈ [Mnemonic.jmi, .jze, .jpl])
      (hjumps : ∀ k ∈ [Mnemonic.jmi, .jze, .jpl], c.jumps k = decide (k = taken)) :
      ∃! k, k ∈ [Mnemonic.jmi, .jze, .jpl] ∧ c.jumps k = true := by
    refine ⟨taken, ⟨hmem, by rw [hjumps taken hmem, decide_eq_true rfl]⟩, ?_⟩
    rintro k ⟨hk, hj⟩
    rw [hjumps k hk] at hj
    exact of_decide_eq_true hj
  rcases h with hf | hf | hf
  · refine hunique .jpl (by simp) ?_
    simp [jumps, hf, Mnemonic.operation?, Condition.holds, Flags.isZero, Flags.isNegative]
  · refine hunique .jze (by simp) ?_
    simp [jumps, hf, Mnemonic.operation?, Condition.holds, Flags.isZero, Flags.isNegative]
  · refine hunique .jmi (by simp) ?_
    simp [jumps, hf, Mnemonic.operation?, Condition.holds, Flags.isZero, Flags.isNegative]

theorem jumps_jnz (c : Core) : c.jumps .jnz = !c.jumps .jze := rfl

end Core

/-! ## Lines of input -/

namespace Buffer

/-- The line that the buffer hands over in an exchange. -/
def handed? (b : Buffer) : Option Exchange → Option String
  | some (.line _) => b.queue.head?
  | _ => none

/-- The buffer `b'` is the buffer `b` after it was fed some lines and has handed over others: they
are the first that it had or was fed, and each of them was asked for with a prompt. -/
structure Served (b : Buffer) (handed fed : List String) (b' : Buffer) : Prop where
  queue : handed ++ b'.queue = b.queue ++ fed
  prompts : b'.prompts.toList = b.prompts.toList ++ handed.map fun _ => inputPrompt

variable {b b' b'' : Buffer} {handed handed' fed fed' : List String}

theorem Served.refl (b : Buffer) : Served b [] [] b :=
  ⟨(List.append_nil _).symm, (List.append_nil _).symm⟩

theorem Served.trans (h : Served b handed fed b') (h' : Served b' handed' fed' b'') :
    Served b (handed ++ handed') (fed ++ fed') b'' where
  queue := by
    rw [List.append_assoc, h'.queue, ← List.append_assoc, h.queue, List.append_assoc]
  prompts := by
    rw [h'.prompts, h.prompts, List.map_append, List.append_assoc]

theorem served_feed (b : Buffer) (line : String) : Served b [] [line] (b.feed line) :=
  ⟨rfl, (List.append_nil _).symm⟩

/-- No line is lost: those still in the queue and the prompts of those handed over are as many as
there were and were fed. -/
theorem Served.count (h : Served b handed fed b') :
    b'.prompts.size + b'.queue.length = b.prompts.size + b.queue.length + fed.length := by
  have hqueue := congrArg List.length h.queue
  have hprompts := congrArg List.length h.prompts
  simp only [List.length_append, List.length_map, Array.length_toList] at hqueue hprompts
  omega

end Buffer

namespace Machine

/-! ## Operations -/

section Operation

variable (m : Machine Buffer)

theorem terminal_act (a : Action) : (m.act a).2.terminal = m.terminal := by
  unfold act
  split <;> rfl

theorem registers_supervisorCall : m.supervisorCall.2.registers = m.registers := by
  unfold supervisorCall
  split
  · unfold input
    split
    · rfl
    · split <;> rfl
  · split
    · unfold output
      split <;> rfl
    · rfl

/-- A call that takes a line takes the first one, also if it cannot store it. -/
theorem served_input : m.terminal.Served m.terminal.queue.head?.toList [] m.input.2.terminal := by
  have hrequest : Terminal.request inputPrompt m.terminal = m.terminal.request inputPrompt := rfl
  rw [input, hrequest, Buffer.request]
  cases hq : m.terminal.queue with
  | nil => exact .refl m.terminal
  | cons line queue =>
    have hserved : m.terminal.Served [line] []
        { m.terminal with queue, prompts := m.terminal.prompts.push inputPrompt } := by
      constructor
      · rw [hq]
        exact (List.append_nil _).symm
      · exact Array.toList_push
    -- the terminal is the same whether the line can be stored or not
    dsimp only
    split <;> exact hserved

/-- An operation takes the line that it asks for, if there is one. -/
theorem served_perform (operation : Operation) :
    m.terminal.Served (m.terminal.handed? (m.operationExchange? operation)).toList []
      (m.perform operation).2.terminal := by
  cases operation with
  | action a =>
    have hterminal : (m.perform (.action a)).2.terminal = m.terminal := m.terminal_act a
    rw [hterminal]
    exact .refl m.terminal
  | supervisor =>
    rw [perform, supervisorCall, operationExchange?]
    split
    · exact m.served_input
    · split
      · -- a text is put out, which leaves queue and prompts alone
        exact ⟨(List.append_nil _).symm, (List.append_nil _).symm⟩
      · exact .refl m.terminal

theorem isSummary_perform {m : Machine Buffer} (h : m.registers.flags.IsSummary)
    (operation : Operation) : (m.perform operation).2.registers.flags.IsSummary := by
  cases operation with
  | action a =>
    rw [perform, act]
    split
    · -- an action that succeeds decides on the flags; one that fails changes nothing
      next ha =>
      rcases (Action.acted_of_run ha).flags with hflags | ⟨w, hflags⟩
      · exact hflags ▸ h
      · exact hflags ▸ Flags.isSummary_ofResult w
    · exact h
  | supervisor =>
    rw [perform, registers_supervisorCall]
    exact h

end Operation

/-! ## Steps and runs -/

/-- The line that a step takes. -/
def received (m : Machine Buffer) : Option String :=
  m.terminal.handed? m.exchange?

theorem filterMap_received (m : Machine Buffer) : [m].filterMap received = m.received.toList := by
  rw [List.filterMap_cons]
  cases m.received <;> rfl

/-- What steps keep, if they are taken at the machines `taken` and the machine is fed some lines
meanwhile. -/
structure Kept (m : Machine Buffer) (taken : List (Machine Buffer)) (fed : List String)
    (m' : Machine Buffer) : Prop where
  flags : m.registers.flags.IsSummary → m'.registers.flags.IsSummary
  steps : m'.registers.steps = m.registers.steps + taken.countP executes
  terminal : m.terminal.Served (taken.filterMap received) fed m'.terminal

variable {m m' a n : Machine Buffer} {taken taken' : List (Machine Buffer)}
  {fed fed' : List String}

/-- What leaves flags, counter and terminal alone keeps all. -/
theorem Kept.of_eq (hflags : m'.registers.flags = m.registers.flags)
    (hsteps : m'.registers.steps = m.registers.steps) (hterminal : m'.terminal = m.terminal) :
    Kept m [] [] m' where
  flags := fun h => hflags ▸ h
  steps := hsteps
  terminal := by
    rw [hterminal]
    exact .refl m.terminal

theorem Kept.refl (m : Machine Buffer) : Kept m [] [] m :=
  .of_eq rfl rfl rfl

theorem Kept.trans (h : Kept m taken fed a) (h' : Kept a taken' fed' m') :
    Kept m (taken ++ taken') (fed ++ fed') m' where
  flags := fun hm => h'.flags (h.flags hm)
  steps := by rw [h'.steps, h.steps, List.countP_append, Nat.add_assoc]
  terminal := by
    rw [List.filterMap_append]
    exact h.terminal.trans h'.terminal

theorem Kept.trans_steps (h : Kept m taken fed a) (h' : Kept a taken' [] m') :
    Kept m (taken ++ taken') fed m' := by
  simpa using h.trans h'

theorem Kept.trans_eq (h : Kept m taken fed a) (hflags : m'.registers.flags = a.registers.flags)
    (hsteps : m'.registers.steps = a.registers.steps) (hterminal : m'.terminal = a.terminal) :
    Kept m taken fed m' := by
  simpa using h.trans (.of_eq hflags hsteps hterminal)

/-- A step that begins no instruction changes nothing. -/
theorem kept_of_not_begins (hx : m.exchange? = none) (he : m.executes = false) :
    Kept m [m] [] m where
  flags := id
  steps := by simp [he]
  terminal := by
    rw [filterMap_received, received, hx]
    exact .refl m.terminal

/-- An operation is performed by a step with the flags, the counter and the line of the machine that
takes the step. -/
theorem kept_perform {operation : Operation} {result : Except Fault Nat}
    (hret : m.opcode ≠ returnOpcode) (hd : m.dispatch m.opcode = some operation)
    (hp : m.noteTrace.perform operation = (result, n)) :
    (m.registers.flags.IsSummary → n.registers.flags.IsSummary) ∧
      n.registers.steps = m.registers.steps ∧
      m.terminal.Served m.received.toList [] n.terminal := by
  have hflags : m.registers.flags.IsSummary → n.registers.flags.IsSummary := by
    intro h
    have hnoted : m.noteTrace.registers.flags.IsSummary := by rwa [noteTrace_toCore]
    have hperformed := isSummary_perform hnoted operation
    rwa [hp] at hperformed
  have hsteps : n.registers.steps = m.registers.steps := by
    have hunnoted := (m.noteTrace.unnoted_perform operation).steps
    rwa [hp, noteTrace_toCore] at hunnoted
  have hserved := m.noteTrace.served_perform operation
  rw [hp, noteTrace_terminal, operationExchange?_noteTrace] at hserved
  have hreceived : m.received = m.terminal.handed? (m.operationExchange? operation) := by
    rw [received, exchange?, if_neg hret, hd, Option.bind_some]
  exact ⟨hflags, hsteps, hreceived ▸ hserved⟩

/-- One step keeps the invariants, also if it fails. -/
theorem kept_step (m : Machine Buffer) : Kept m [m] [] m.step.2 := by
  have hcases := m.stepCases
  generalize hs : m.step = r at hcases ⊢
  cases hcases with
  | ended hret =>
    have he : m.executes = false := by rw [executes, hs]
    exact kept_of_not_begins (exchange?_of_return hret) he
  | unknown hret hd =>
    have he : m.executes = false := by rw [executes, hs]
    have hx : m.exchange? = none := by rw [exchange?, if_neg hret, hd, Option.bind_none]
    exact kept_of_not_begins hx he
  | went hret hd hp =>
    have he : m.executes = true := by rw [executes, hs]
    obtain ⟨hflags, hsteps, hterminal⟩ := kept_perform hret hd hp
    constructor
    · exact hflags
    · -- the step itself counts the instruction
      rw [List.countP_singleton, he, if_pos rfl]
      exact congrArg (· + 1) hsteps
    · rwa [filterMap_received]
  | failed hret hd hp =>
    have he : m.executes = false := by rw [executes, hs]
    obtain ⟨hflags, hsteps, hterminal⟩ := kept_perform hret hd hp
    constructor
    · exact hflags
    · rw [List.countP_singleton, he, if_neg Bool.false_ne_true]
      exact hsteps
    · rwa [filterMap_received]

/-- A run keeps the invariants. -/
theorem kept_of_run {limit : Option Int} {fuel executed : Nat} {result : Except Fault Nat}
    (h : run limit fuel executed m = some (result, m')) :
    Kept m (course limit fuel executed m) [] m' :=
  related_of_run (R := fun m taken m' => Kept m taken [] m') Kept.refl kept_step
    (fun h h' => h.trans h') h

end Machine

namespace Bench

/-! ## Uses of a machine -/

/-- What has been done with a machine: uses of `b` in turn have led to `c`, `taken` are the machines
at the steps on the way, and `fed` are the lines that the machine was fed. -/
inductive Sequel (b : Bench Buffer) : List (Machine Buffer) → List String → Bench Buffer → Prop
  /-- Nothing was done. -/
  | start : Sequel b [] [] b
  /-- The machine took a step, which may have failed. -/
  | step {taken : List (Machine Buffer)} {fed : List String} {c : Bench Buffer}
      (h : Sequel b taken fed c) :
      Sequel b (taken ++ [c.machine]) fed { c with machine := c.machine.step.2 }
  /-- A run has ended, regularly or not. -/
  | execute {taken : List (Machine Buffer)} {fed : List String} {c : Bench Buffer}
      (h : Sequel b taken fed c) {begin : Int} {limit : Option Int} {fuel : Nat}
      {result : Except Fault Nat} {m : Machine Buffer}
      (hrun : c.machine.execute begin limit fuel = some (result, m)) :
      Sequel b (taken ++ Machine.course limit fuel 0 (c.machine.startAt begin)) fed
        { c with machine := m }
  /-- A session was opened. -/
  | openSession {taken : List (Machine Buffer)} {fed : List String} {c : Bench Buffer}
      (h : Sequel b taken fed c) (begin : Int) :
      Sequel b taken fed
        { machine := c.machine.startAt begin, sessions := c.sessions ++ [{}] }
  /-- One of the sessions took a step, which is one of the machine unless the session has ended. -/
  | stepSession {taken : List (Machine Buffer)} {fed : List String} {c : Bench Buffer}
      (h : Sequel b taken fed c) {i : Nat} {s : Session} (hs : c.sessions[i]? = some s) :
      Sequel b (taken ++ if s.running then [c.machine] else []) fed
        { machine := (s.step c.machine).2.2
          sessions := c.sessions.set i (s.step c.machine).2.1 }
  /-- The machine was fed a line. -/
  | feed {taken : List (Machine Buffer)} {fed : List String} {c : Bench Buffer}
      (h : Sequel b taken fed c) (line : String) :
      Sequel b taken (fed ++ [line])
        { c with machine := { c.machine with terminal := c.machine.terminal.feed line } }
  /-- From now on steps are traced, or no more. -/
  | setTracing {taken : List (Machine Buffer)} {fed : List String} {c : Bench Buffer}
      (h : Sequel b taken fed c) (tracing : Bool) :
      Sequel b taken fed { c with machine := { c.machine with tracing } }
  /-- The trace was cleared. -/
  | clearTrace {taken : List (Machine Buffer)} {fed : List String} {c : Bench Buffer}
      (h : Sequel b taken fed c) :
      Sequel b taken fed { c with machine := { c.machine with trace := #[] } }

variable {b c : Bench Buffer} {taken : List (Machine Buffer)} {fed : List String}

/-- However a machine is used, it keeps the invariants. -/
theorem Sequel.kept (h : Sequel b taken fed c) : b.machine.Kept taken fed c.machine := by
  -- Induction on the uses: each of them takes steps, is fed a line, or touches none of this.
  induction h with
  | start => exact .refl b.machine
  | step h ih => exact ih.trans_steps (Machine.kept_step _)
  | @execute taken fed c h begin limit fuel result m hrun ih =>
    have hstart : b.machine.Kept taken fed (c.machine.startAt begin) := ih.trans_eq rfl rfl rfl
    exact hstart.trans_steps (Machine.kept_of_run hrun)
  | openSession h begin ih => exact ih.trans_eq rfl rfl rfl
  | @stepSession taken fed c h i s hs ih =>
    rw [Session.machine_step]
    split
    · exact ih.trans_steps (Machine.kept_step c.machine)
    · rw [List.append_nil]
      exact ih
  | @feed taken fed c h line ih =>
    have hfeed : c.machine.Kept [] [line]
        { c.machine with terminal := c.machine.terminal.feed line } :=
      ⟨id, rfl, c.machine.terminal.served_feed line⟩
    simpa using ih.trans hfeed
  | setTracing h tracing ih => exact ih.trans_eq rfl rfl rfl
  | clearTrace h ih => exact ih.trans_eq rfl rfl rfl

end Bench

/-- What holds of a machine `m'` that was `m` and has taken the steps `taken` and been fed some
lines. -/
structure Machine.Reached (m : Machine Buffer) (taken : List (Machine Buffer)) (fed : List String)
    (m' : Machine Buffer) : Prop where
  /-- The flags summarise a result. -/
  flags : m'.registers.flags.IsSummary
  /-- So just one of the jumps by sign would be taken. -/
  jumps : ∃! k, k ∈ [Mnemonic.jmi, .jze, .jpl] ∧ m'.jumps k = true
  /-- The jump if not zero would be taken just if the jump if zero would not. -/
  nonzero : m'.jumps .jnz = !m'.jumps .jze
  /-- No word is stored below zero. -/
  memory : ∀ a w, m'.memory.get? a = some w → 0 ≤ a
  /-- There are eight general registers. -/
  general : ∀ i, (m'.registers.get? i).isSome ↔ 0 ≤ i ∧ i < 8
  /-- The steps that executed an instruction are counted. -/
  steps : m'.registers.steps = m.registers.steps + taken.countP executes
  /-- The lines that the steps took are the first of those that were queued and fed. -/
  lines : taken.filterMap received ++ m'.terminal.queue = m.terminal.queue ++ fed
  /-- Each of them was asked for with a prompt. -/
  prompts : m'.terminal.prompts.toList =
    m.terminal.prompts.toList ++ (taken.filterMap received).map fun _ => inputPrompt
  /-- So no line is lost. -/
  count : m'.terminal.prompts.size + m'.terminal.queue.length =
    m.terminal.prompts.size + m.terminal.queue.length + fed.length

namespace Bench

/-- **Invariants.** However a machine whose flags summarise a result is stepped, run, fed and
traced, whatever program and table of operations it has, and whether steps fail or not, its flags
still do, its counter counts the instructions executed, and the lines that it was fed are taken in
their order and none is lost. -/
theorem reached_of_sequel {b c : Bench Buffer} {taken : List (Machine Buffer)} {fed : List String}
    (h : Sequel b taken fed c) (hflags : b.machine.registers.flags.IsSummary) :
    b.machine.Reached taken fed c.machine := by
  have hkept := h.kept
  have hsummary := hkept.flags hflags
  constructor
  case flags => exact hsummary
  case jumps => exact Core.existsUnique_jumps hsummary
  case nonzero => exact Core.jumps_jnz _
  case memory =>
    intro a w hw
    cases a with
    | ofNat a => exact Int.natCast_nonneg a
    | negSucc a => cases hw
  case general => exact fun i => Registers.get?_isSome_iff
  case steps => exact hkept.steps
  case lines => exact hkept.terminal.queue
  case prompts => exact hkept.terminal.prompts
  case count => exact hkept.terminal.count

/-- A session that waits, is fed a line and goes on; the trace is cleared, and the program runs
again. -/
theorem reached_waiting :
    ∃ taken c, Sequel waiting taken ["ab", "c"] c ∧ waiting.machine.registers.flags.IsSummary ∧
      waiting.machine.Reached taken ["ab", "c"] c.machine ∧ taken.countP Machine.executes = 2 := by
  have hwaits := ((Sequel.start (b := waiting)).openSession 0).stepSession (i := 0) rfl
  have hgoes := ((hwaits.feed "ab").stepSession (i := 0) rfl).clearTrace.setTracing false
  obtain ⟨taken, c, hfed, hends, hcount⟩ : ∃ taken c, Sequel waiting taken ["ab", "c"] c ∧
      (c.machine.execute 0 none 3).isSome = true ∧
      (taken ++ Machine.course none 3 0 (c.machine.startAt 0)).countP Machine.executes = 2 :=
    ⟨_, _, hgoes.feed "c", by decide +kernel, by decide +kernel⟩
  obtain ⟨⟨result, m⟩, hrun⟩ := Option.isSome_iff_exists.mp hends
  have hsequel := hfed.execute hrun
  exact ⟨_, _, hsequel, .inl rfl, reached_of_sequel hsequel (.inl rfl), hcount⟩

end Bench

end WordMachine
