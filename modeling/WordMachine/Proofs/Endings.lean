import WordMachine.Proofs.Attending
import WordMachine.Proofs.Requests

/-!
# How programs end

A program that runs on the console, or is stepped for one line of input after the other, comes to
its end or raises a fault. If it puts out only texts that can be written, the fault is one of the
machine, or a word was to be stored below zero, or the program needs more of its input than can be
decoded. What was shown before the end stays shown.

## Main definitions

* `Console.Extends`: a console has written all that another one has written
* `Keyboard.Follows`: a keyboard whose console extends that of another one, with the same input
  behind
* `Command.Raises`, `Command.Ends`: the program raises a fault, or comes to its end
* `Command.Shows`: the consoles at the stages of a program
* `Command.Concluded`: how a program has ended, and what is shown then

## Main results

* `Command.Raises.cases`: the faults that a program can raise
* `Command.concluded_of_runProgram`, `Command.concluded_of_stepProgram`: how runs and sittings end
-/

namespace WordMachine

/-! ## What stays written -/

namespace Console

/-- A console has written all that another one has written, and perhaps more behind it. -/
def Extends (c' c : Console) : Prop :=
  c.written.toList <+: c'.written.toList

variable {c c' c'' : Console}

theorem Extends.refl (c : Console) : c.Extends c :=
  List.prefix_rfl

theorem Extends.trans (h' : c''.Extends c') (h : c'.Extends c) : c''.Extends c :=
  List.IsPrefix.trans h h'

theorem extends_writeLine (text : List CodePoint) (c : Console) : (c.writeLine text).Extends c :=
  ⟨_, (toList_written_writeLine text c).symm⟩

theorem extends_emit {text : List CodePoint} (h : c.emit text = .ok c') : c'.Extends c := by
  unfold emit at h
  split at h
  · cases h
  · cases h
    exact extends_writeLine text c

theorem extends_request (prompt : String) (c : Console) : (c.request prompt).2.Extends c :=
  ⟨_, (c.behind_request prompt).2.written.symm⟩

/-- The text of a console begins with that of one that it extends. -/
theorem Extends.text (h : c'.Extends c) : ∃ rest, c'.text = c.text ++ rest := by
  obtain ⟨rest, hrest⟩ := h
  refine ⟨CodePoint.toText rest, ?_⟩
  rw [Console.text, ← hrest, CodePoint.toText, List.filterMap_append, String.ofList_append]
  rfl

end Console

namespace Keyboard

variable {k k' k'' : Keyboard}

/-- A keyboard some requests and texts behind another one: what cannot be decoded is the same. -/
structure Follows (k' k : Keyboard) : Prop where
  /-- The console only adds to what was written. -/
  console : k'.console.Extends k.console
  /-- What cannot be decoded stays behind the input. -/
  obstacle : k'.obstacle = k.obstacle

theorem Follows.refl (k : Keyboard) : k.Follows k :=
  ⟨.refl _, rfl⟩

theorem Follows.trans (h' : k''.Follows k') (h : k'.Follows k) : k''.Follows k :=
  ⟨h'.console.trans h.console, h'.obstacle.trans h.obstacle⟩

theorem follows_request {prompt line : String} (h : k.request prompt = some (line, k')) :
    k'.Follows k := by
  unfold request at h
  split at h
  · cases h
  · cases h
    exact ⟨Console.extends_request prompt k.console, rfl⟩

theorem follows_emit {text : List CodePoint} (h : k.emit text = .ok k') : k'.Follows k := by
  unfold emit at h
  cases hc : k.console.emit text with
  | error cause =>
    rw [hc] at h
    cases h
  | ok console =>
    rw [hc] at h
    cases h
    exact ⟨Console.extends_emit hc, rfl⟩

/-- A keyboard refuses a line that cannot be decoded, and a text that cannot be written. -/
theorem refusal_of_answer {e : Option Exchange} {fault : Fault} (h : answer k e = .error fault) :
    (∃ reason, k.obstacle = some reason ∧ fault = .undecodable reason) ∨
      ∃ text, e = some (.text text) ∧ firstSurrogates? text ≠ none := by
  rcases e with _ | prompt | text
  · cases h
  · left
    rw [answer] at h
    split at h
    · cases h
    · next hnone =>
      have hnone : k.request prompt = none := hnone
      unfold request at hnone
      split at hnone
      · next hrefused =>
        rw [Bool.and_eq_true] at hrefused
        obtain ⟨reason, hreason⟩ := Option.isSome_iff_exists.mp hrefused.1
        have hobstacle : Terminal.obstacle k = some reason := hreason
        refine ⟨reason, hreason, ?_⟩
        rw [← Except.error.inj h, Terminal.shortage, hobstacle]
      · cases hnone
  · right
    refine ⟨text, rfl, ?_⟩
    intro hquiet
    have hemit : Terminal.emit text k = .ok { k with console := k.console.writeLine text } := by
      show k.emit text = _
      rw [emit, Console.emit_of_takes (k.console.encoding.takes_of_quiet hquiet)]
      rfl
    rw [answer, hemit] at h
    cases h

end Keyboard

/-! ## Runs at a keyboard -/

namespace Machine

variable {limit : Option Int} {fuel executed : Nat}

/-- A run fails at its limit, or one of its steps fails. -/
theorem exists_of_run_error {σ : Type} [Terminal σ] {m m' : Machine σ} {fault : Fault}
    (h : run limit fuel executed m = some (.error fault, m')) :
    (∃ count address, limit = some count ∧ fault = .ofLimit count address) ∨
      ∃ n ∈ course limit fuel executed m, n.step.1 = .error fault := by
  -- Induction on the fuel: the run ends where it is, or goes on after a step.
  induction fuel generalizing executed m with
  | zero => cases h
  | succ fuel ih =>
    rcases run_cases h with ⟨hstop, -, -, hfault⟩ | ⟨-, hcourse, hlast, -⟩ |
      ⟨words, n, -, -, hcourse, h⟩
    · obtain rfl := Except.error.inj hfault
      cases limit with
      | none => cases hstop
      | some count => exact .inl ⟨count, _, rfl, rfl⟩
    · obtain ⟨-, ⟨-, hresult⟩ | ⟨fault', hstep, hfault⟩⟩ := verdict?_eq_some_iff.mp hlast
      · cases hresult
      · refine .inr ⟨m, ?_, Except.error.inj hfault ▸ hstep⟩
        rw [hcourse]
        exact List.mem_singleton_self m
    · refine (ih h).imp_right ?_
      rintro ⟨a, ha, hstep⟩
      refine ⟨a, ?_, hstep⟩
      rw [hcourse]
      exact List.mem_cons_of_mem m ha

/-- A run that does not fail has come to the end of the program, within its limit if it has executed
anything. -/
theorem returned_of_run {σ : Type} [Terminal σ] {m m' : Machine σ} {n : Nat}
    (h : run limit fuel executed m = some (.ok n, m')) :
    m'.opcode = returnOpcode ∧
      (n = executed ∨ ∀ count, limit = some count → (n : Int) ≤ count) := by
  induction fuel generalizing executed m with
  | zero => cases h
  | succ fuel ih =>
    rcases run_cases h with ⟨-, -, -, hresult⟩ | ⟨-, -, hlast, -⟩ | ⟨words, a, hgoes, hstep, -, h⟩
    · cases hresult
    · obtain ⟨rfl, ⟨hended, hresult⟩ | ⟨fault, -, hresult⟩⟩ := verdict?_eq_some_iff.mp hlast
      · have hstep : m.step = (.ok .ended, m.step.2) := Prod.ext hended rfl
        obtain ⟨hret, hsame⟩ := step_eq_ended_iff.mp hstep
        exact ⟨by rwa [hsame], .inl (Except.ok.inj hresult)⟩
      · cases hresult
    · obtain ⟨hret, rfl | hwithin⟩ := ih h
      · refine ⟨hret, .inr ?_⟩
        rintro count rfl
        -- a step was taken, so the program was not at its end, and its limit was not reached
        have hgoing : m.opcode ≠ returnOpcode := by
          intro hend
          rw [step_eq_ended_iff.mpr ⟨hend, rfl⟩] at hstep
          cases hstep
        simp [mustStop, hgoing] at hgoes
        omega
      · exact ⟨hret, .inr hwithin⟩

theorem follows_supervisorCall (m : Machine Keyboard) :
    m.supervisorCall.2.terminal.Follows m.terminal := by
  unfold supervisorCall
  split
  · unfold input
    split
    · exact .refl _
    · next hrequest =>
      have hfollows := Keyboard.follows_request hrequest
      split <;> exact hfollows
  · split
    · unfold output
      split
      · next hemit => exact Keyboard.follows_emit hemit
      · exact .refl _
    · exact .refl _

/-- A step only adds to what was written. -/
theorem follows_step (m : Machine Keyboard) : m.step.2.terminal.Follows m.terminal := by
  have hperform (operation : Operation) :
      (m.noteTrace.perform operation).2.terminal.Follows m.terminal := by
    rw [← m.noteTrace_terminal]
    cases operation with
    | action a =>
      simp only [perform, act]
      split <;> exact .refl _
    | supervisor => exact m.noteTrace.follows_supervisorCall
  have hcases := m.stepCases
  generalize m.step = r at hcases ⊢
  cases hcases with
  | ended => exact .refl _
  | unknown => exact .refl _
  | @went _ operation _ words n hp | @failed _ operation _ fault n hp =>
    have hnext := hperform operation
    rw [hp] at hnext
    exact hnext

/-- So does a run. -/
theorem follows_run {m m' : Machine Keyboard} {result : Except Fault Nat}
    (h : run limit fuel executed m = some (result, m')) :
    m'.terminal.Follows m.terminal ∧
      ∀ n ∈ course limit fuel executed m, n.terminal.Follows m.terminal ∧
        m'.terminal.Follows n.terminal := by
  -- Each keyboard of the course follows the first one, and the last one follows each.
  refine related_of_run
    (R := fun m ms m' => m'.terminal.Follows m.terminal ∧
      ∀ n ∈ ms, n.terminal.Follows m.terminal ∧ m'.terminal.Follows n.terminal)
    (fun m => ⟨.refl _, nofun⟩) (fun m => ?_) (fun h h' => ?_) h
  · have hstep := m.follows_step
    refine ⟨hstep, fun n hn => ?_⟩
    obtain rfl := List.mem_singleton.mp hn
    exact ⟨.refl _, hstep⟩
  · refine ⟨h'.1.trans h.1, fun n hn => ?_⟩
    rcases List.mem_append.mp hn with hn | hn
    · exact ⟨(h.2 n hn).1, h'.1.trans (h.2 n hn).2⟩
    · exact ⟨(h'.2 n hn).1.trans h.1, (h'.2 n hn).2⟩

end Machine

namespace Command

/-! ## The course of a program -/

theorem encoding_openConsole (o : Options) (w : Workspace) (stdin : StandardInput) :
    (openConsole o w stdin).encoding = .utf8 := by
  unfold openConsole
  dsimp only
  split
  · simp
  · rfl

/-- The machine of a run. -/
def runner (o : Options) (w : Workspace) (stdin : StandardInput) : Machine Keyboard where
  memory := w.memory
  terminal := { console := openConsole o w stdin, obstacle := stdin.obstacle }

/-- The machine of a sitting. -/
def stepper (w : Workspace) (entry : Int) : Machine Buffer :=
  ({ memory := w.memory, terminal := {} } : Machine Buffer).startAt entry

/-- The sitting when the program begins. -/
def openSitting (o : Options) (w : Workspace) (entry : Int) (stdin : StandardInput) : Sitting :=
  { machine := stepper w entry, console := openConsole o w stdin }

/-- The number of instructions that a run may execute, if there is a limit. -/
def budget : StepLimit → Option Int
  | .atMost count => some count
  | _ => none

/-- The program raises a fault and leaves a core behind. -/
inductive Raises (o : Options) (w : Workspace) (entry : Int) (stdin : StandardInput) (fuel : Nat) :
    Fault → Core → Prop
  /-- A run fails. -/
  | run {fault : Fault} {m : Machine Keyboard} (hmode : o.interactive = false)
      (h : (runner o w stdin).execute entry (budget o.maxSteps) fuel = some (.error fault, m)) :
      Raises o w entry stdin fuel fault m.toCore
  /-- A session that is attended with the lines of the input fails. -/
  | sitting {fault : Fault} {m : Machine Buffer} (hmode : o.interactive = true)
      (h : Session.attend {} (stepper w entry) stdin.lines = (.error fault, m)) :
      Raises o w entry stdin fuel fault m.toCore
  /-- A session is still running behind the lines, and what comes next cannot be decoded. -/
  | exhausted {s : Session} {m : Machine Buffer} {reason : String} (hmode : o.interactive = true)
      (h : Session.attend {} (stepper w entry) stdin.lines = (.ok s, m))
      (hrunning : s.running = true) (hobstacle : stdin.obstacle = some reason) :
      Raises o w entry stdin fuel (.undecodable reason) m.toCore

/-- The program comes to an end. -/
inductive Ends (o : Options) (w : Workspace) (entry : Int) (stdin : StandardInput) (fuel : Nat) :
    Prop
  /-- A run has come to the end of the program within its limit. -/
  | run {executed : Nat} {m : Machine Keyboard} (hmode : o.interactive = false)
      (h : (runner o w stdin).execute entry (budget o.maxSteps) fuel = some (.ok executed, m))
      (hret : m.opcode = returnOpcode)
      (hlimit : ∀ count, o.maxSteps = .atMost count → (executed : Int) ≤ max 0 count)
  /-- An attended session has come to the end of the program; or it is still running at the end of
  the input, and goes on with any further lines. -/
  | sitting {s : Session} {m : Machine Buffer} (hmode : o.interactive = true)
      (h : Session.attend {} (stepper w entry) stdin.lines = (.ok s, m))
      (hend : (s.running = true ∧ stdin.obstacle = none ∧
          ∀ rest, Session.attend {} (stepper w entry) (stdin.lines ++ rest) = s.attend m rest) ∨
        s.running = false ∧ m.opcode = returnOpcode)

/-- The texts that a program puts out. -/
def putOut (o : Options) (w : Workspace) (entry : Int) (stdin : StandardInput) (fuel : Nat) :
    List (List CodePoint) :=
  if o.interactive then
    (Session.attend {} (stepper w entry) stdin.lines).2.terminal.output.toList
  else textsOf ((runner o w stdin).exchanges entry (budget o.maxSteps) fuel)

/-- The consoles at the stages of a program: when it begins, when a run takes a step, and when a
sitting has read some of its lines. -/
inductive Shows (o : Options) (w : Workspace) (entry : Int) (stdin : StandardInput) (fuel : Nat) :
    Console → Prop
  | opened : Shows o w entry stdin fuel (openConsole o w stdin)
  | run {m : Machine Keyboard} (hmode : o.interactive = false)
      (h : m ∈ Machine.course (budget o.maxSteps) fuel 0 ((runner o w stdin).startAt entry)) :
      Shows o w entry stdin fuel m.terminal.console
  | sitting (hmode : o.interactive = true) (k : Nat) :
      Shows o w entry stdin fuel
        ((openSitting o w entry stdin).takeLines w (stdin.lines.take k)).2.console

variable {o : Options} {w : Workspace} {entry : Int} {stdin : StandardInput} {fuel : Nat}

/-! ## Faults of a program -/

/-- A program raises one fault and leaves one core behind. -/
theorem Raises.unique {fault fault' : Fault} {core core' : Core}
    (h : Raises o w entry stdin fuel fault core) (h' : Raises o w entry stdin fuel fault' core') :
    fault = fault' ∧ core = core' := by
  cases h with
  | run hmode h =>
    cases h' with
    | run _ h' =>
      cases h.symm.trans h'
      exact ⟨rfl, rfl⟩
    | sitting hmode' | exhausted hmode' => exact absurd (hmode.symm.trans hmode') nofun
  | sitting hmode h =>
    cases h' with
    | run hmode' => exact absurd (hmode.symm.trans hmode') nofun
    | sitting _ h' =>
      cases h.symm.trans h'
      exact ⟨rfl, rfl⟩
    | exhausted _ h' => cases h.symm.trans h'
  | exhausted hmode h hrunning hobstacle =>
    cases h' with
    | run hmode' => exact absurd (hmode.symm.trans hmode') nofun
    | sitting _ h' => cases h.symm.trans h'
    | exhausted _ h' _ hobstacle' =>
      cases h.symm.trans h'
      cases hobstacle.symm.trans hobstacle'
      exact ⟨rfl, rfl⟩

/-- A program that comes to an end raises no fault. -/
theorem Ends.not_raises {fault : Fault} {core : Core} (h : Ends o w entry stdin fuel) :
    ¬Raises o w entry stdin fuel fault core := by
  intro h'
  cases h with
  | run hmode h =>
    cases h' with
    | run _ h' => cases h.symm.trans h'
    | sitting hmode' | exhausted hmode' => exact absurd (hmode.symm.trans hmode') nofun
  | sitting hmode h hend =>
    cases h' with
    | run hmode' => exact absurd (hmode.symm.trans hmode') nofun
    | sitting _ h' => cases h.symm.trans h'
    | exhausted _ h' hrunning hobstacle =>
      cases h.symm.trans h'
      rcases hend with ⟨-, hnone, -⟩ | ⟨hended, -⟩
      · cases hnone.symm.trans hobstacle
      · cases hended.symm.trans hrunning

/-- A fault that is reported as one of the machine: a sitting knows no limit. -/
def IsMachineFault (o : Options) (fault : Fault) : Prop :=
  (∃ opcode address, fault = .undefinedOpcode opcode address) ∨
    (∃ index, fault = .invalidRegister index) ∨
    o.interactive = false ∧ ∃ limit address, fault = .stepLimit limit address

theorem report_of_isMachineFault {o : Options} {fault : Fault} (h : IsMachineFault o fault)
    (verbose : Bool) (address : Int) :
    (Ending.stopped fault address).report verbose =
      { exitCode := 1
        stderr := "Machine error: " ++ fault.message ++ " (PC=" ++ Word.hex address ++ ")\n" } := by
  rcases h with ⟨_, _, rfl⟩ | ⟨_, rfl⟩ | ⟨-, _, _, rfl⟩ <;> rfl

/-- A fault that is reported as an internal error: a word was to be stored below zero, or the
program needs more of its input than can be decoded. -/
inductive IsInternalFault (stdin : StandardInput) : Fault → Prop
  | negativeAddress {address : Int} (h : address < 0) :
      IsInternalFault stdin (.negativeAddress address)
  | undecodable {reason : String} (h : stdin.obstacle = some reason) :
      IsInternalFault stdin (.undecodable reason)

theorem report_of_isInternalFault {fault : Fault} (h : IsInternalFault stdin fault) (verbose : Bool)
    (address : Int) :
    (Ending.stopped fault address).report verbose = .internal verbose fault.message := by
  cases h <;> rfl

theorem IsInternalFault.not_isMachineFault {fault : Fault} (h : IsInternalFault stdin fault) :
    ¬IsMachineFault o fault := by
  rintro (⟨_, _, rfl⟩ | ⟨_, rfl⟩ | ⟨-, _, _, rfl⟩) <;> cases h

/-- The faults that a program can raise: those of the machine, and those that are reported as
internal errors. -/
theorem Raises.cases {fault : Fault} {core : Core} (h : Raises o w entry stdin fuel fault core)
    (hlimit : o.HasWritableLimit)
    (hquiet : ∀ text ∈ putOut o w entry stdin fuel, firstSurrogates? text = none) :
    IsMachineFault o fault ∨ IsInternalFault stdin fault := by
  have hown {f : Fault} (hf : f.IsOwn) : IsMachineFault o f ∨ IsInternalFault stdin f := by
    cases hf with
    | invalidRegister index => exact .inl (.inr (.inl ⟨index, rfl⟩))
    | negativeAddress hneg => exact .inr (.negativeAddress hneg)
  cases h with
  | @run fault m hmode h =>
    rcases Machine.exists_of_run_error h with ⟨count, address, hcount, rfl⟩ | ⟨n, hn, hstep⟩
    · -- a limit that comes from the command line can be told
      have hwritable : Numeral.isUnwritable count = false := by
        cases hsteps : o.maxSteps with
        | atMost most =>
          rw [hsteps] at hcount
          exact hlimit count (hsteps.trans (congrArg _ (Option.some.inj hcount)))
        | _ =>
          rw [hsteps] at hcount
          cases hcount
      refine .inl (.inr (.inr ⟨hmode, count, address, ?_⟩))
      rw [Fault.ofLimit, hwritable, if_neg Bool.false_ne_true]
    · rcases Machine.fault_of_step hstep with hopcode | hf | hanswer
      · exact .inl (.inl hopcode)
      · exact hown hf
      · rcases Keyboard.refusal_of_answer hanswer with ⟨reason, hreason, rfl⟩ | ⟨text, htext, hne⟩
        · have hfollows := ((Machine.follows_run h).2 n hn).1
          exact .inr (.undecodable (hfollows.obstacle.symm.trans hreason))
        · -- the text is among those of the program, which can be written
          refine absurd (hquiet text ?_) hne
          rw [putOut, hmode, if_neg Bool.false_ne_true]
          exact List.mem_filterMap.mpr ⟨.text text, List.mem_filterMap.mpr ⟨n, hn, htext⟩, rfl⟩
  | sitting hmode h =>
    rcases Session.fault_of_attend h with hopcode | hf
    · exact .inl (.inl hopcode)
    · exact hown hf
  | exhausted _ _ _ hobstacle => exact .inr (.undecodable hobstacle)

/-! ## What a program leaves -/

theorem extends_print (c : Console) (line : String) : (print c line).Extends c :=
  Console.extends_writeLine ..

theorem extends_printCore (c : Console) (core : Core) (w : Workspace) :
    (printCore c core w).Extends c :=
  (extends_print ..).trans (extends_print ..)

theorem extends_printOutput (c : Console) (texts : List (List CodePoint)) :
    (printOutput c texts).2.Extends c := by
  induction texts generalizing c with
  | nil => exact .refl c
  | cons text texts ih =>
    rw [printOutput]
    split
    · next c' hemit => exact (ih c').trans (Console.extends_emit hemit)
    · exact .refl c

namespace Sitting

theorem extends_flush (s : Sitting) : s.flush.2.console.Extends s.console := by
  have hprint := extends_printOutput s.console s.machine.terminal.output.toList
  unfold flush
  dsimp only
  generalize printOutput s.console s.machine.terminal.output.toList = o at hprint ⊢
  rcases o with ⟨_ | _, c⟩ <;> exact hprint

/-- A sitting only adds to what its console has written. -/
theorem extends_takeLine (w : Workspace) (s : Sitting) (line : List Char) :
    (s.takeLine w line).2.console.Extends s.console := by
  have hannounced := extends_print s.console
    ("PC: " ++ Word.hex (s.handOver line).machine.registers.counter)
  rw [← s.handOver_console line] at hannounced ⊢
  unfold takeLine
  dsimp only
  generalize s.handOver line = s₁ at hannounced ⊢
  -- the step of the machine writes nothing
  have hstep : Console.Extends (step { s₁ with
      console := print s₁.console ("PC: " ++ Word.hex s₁.machine.registers.counter) }).2.console
      s₁.console := hannounced
  split
  · next h =>
    rw [h] at hstep
    exact hstep
  · next s₂ h =>
    rw [h] at hstep
    have hflush := (extends_flush s₂).trans hstep
    split
    · next h' =>
      rw [h'] at hflush
      exact hflush
    · next s₃ h' =>
      rw [h'] at hflush
      have hdumped := (extends_print (printCore s₃.console s₃.machine.toCore w) "---").trans
        ((extends_printCore ..).trans hflush)
      split
      · exact (extends_print ..).trans hflush
      · split
        · exact hdumped
        · exact (extends_print ..).trans hdumped

theorem extends_takeLines (w : Workspace) (s : Sitting) (lines : List (List Char)) :
    (s.takeLines w lines).2.console.Extends s.console := by
  induction lines generalizing s with
  | nil => exact .refl _
  | cons line lines ih =>
    have hfirst := extends_takeLine w s line
    rw [takeLines]
    generalize s.takeLine w line = o at hfirst ⊢
    rcases o with ⟨_ | _ | _, s'⟩
    · exact hfirst
    · exact hfirst
    · exact (ih s').trans hfirst

/-- What is shown with some of the lines is still shown with all of them. -/
theorem extends_takeLines_take (w : Workspace) (s : Sitting) (lines : List (List Char)) (k : Nat) :
    (s.takeLines w lines).2.console.Extends (s.takeLines w (lines.take k)).2.console := by
  induction lines generalizing s k with
  | nil => simpa using Console.Extends.refl _
  | cons line lines ih =>
    cases k with
    | zero => exact extends_takeLines w s (line :: lines)
    | succ k =>
      rw [List.take_succ_cons, takeLines, takeLines]
      rcases s.takeLine w line with ⟨_ | _ | _, s'⟩
      · exact .refl _
      · exact .refl _
      · exact ih s' k

end Sitting

theorem extends_closeConsole (c : Console) (fault : Fault) : (closeConsole c fault).Extends c := by
  unfold closeConsole
  split
  · exact extends_print c inputPrompt
  · exact .refl c

/-- A program has come to an ending with a console. -/
structure Concluded (o : Options) (w : Workspace) (entry : Int) (stdin : StandardInput) (fuel : Nat)
    (ending : Ending) (console : Console) : Prop where
  /-- The program has come to its end, or has raised the fault that the ending tells. -/
  ending : ending = .finished ∧ Ends o w entry stdin fuel ∨
    ∃ fault core, ending = .stopped fault core.registers.counter ∧
      Raises o w entry stdin fuel fault core
  /-- All that was shown is still shown. -/
  kept : ∀ c, Shows o w entry stdin fuel c → console.Extends c

theorem concluded_of_runProgram {ending : Ending} {console : Console} {records : List Record}
    (hmode : o.interactive = false) (hlimit : o.maxSteps ≠ .unspecified)
    (h : runProgram o w entry { console := openConsole o w stdin, obstacle := stdin.obstacle }
      fuel = some (ending, console, records)) :
    Concluded o w entry stdin fuel ending console := by
  have hwithin : runWithin (budget o.maxSteps) o.dump w entry
      { console := openConsole o w stdin, obstacle := stdin.obstacle } fuel =
        some (ending, console, records) := by
    rw [runProgram] at h
    cases hsteps : o.maxSteps with
    | unspecified => exact absurd hsteps hlimit
    | _ =>
      rw [hsteps] at h
      exact h
  obtain ⟨⟨result, m⟩, hrun, hend⟩ := Option.map_eq_some_iff.mp hwithin
  have hfollows := Machine.follows_run hrun
  have hkept : ∀ c, Shows o w entry stdin fuel c → m.terminal.console.Extends c := by
    intro c hc
    cases hc with
    | opened => exact hfollows.1.console
    | run _ hm => exact (hfollows.2 _ hm).2.console
    | sitting hmode' => exact absurd (hmode.symm.trans hmode') nofun
  cases result with
  | error fault =>
    cases hend
    exact ⟨.inr ⟨fault, m.toCore, rfl, .run hmode hrun⟩,
      fun c hc => (extends_closeConsole ..).trans (hkept c hc)⟩
  | ok executed =>
    obtain ⟨hret, hcount⟩ := Machine.returned_of_run hrun
    have hends : Ends o w entry stdin fuel := by
      refine .run hmode hrun hret fun count hsteps => ?_
      rcases hcount with rfl | hcount
      · exact Int.le_max_left 0 count
      · exact Int.le_trans (hcount count (by rw [hsteps, budget])) (Int.le_max_right 0 count)
    cases hend
    refine ⟨.inl ⟨rfl, hends⟩, fun c hc => ?_⟩
    split
    · exact (extends_printCore ..).trans (hkept c hc)
    · exact hkept c hc

/-- How a sitting ends whose session has taken all lines without a fault. -/
theorem ending_of_attend {s : Sitting} {session : Session} {m : Machine Buffer}
    (hmode : o.interactive = true)
    (hattend : Session.attend {} (stepper w entry) stdin.lines = (.ok session, m))
    (hsession : s.session = session) (hcore : m.toCore = s.machine.toCore) :
    s.ending stdin.obstacle = .finished ∧ Ends o w entry stdin fuel ∨
      ∃ fault core, s.ending stdin.obstacle = .stopped fault core.registers.counter ∧
        Raises o w entry stdin fuel fault core := by
  unfold Sitting.ending
  rw [hsession]
  rcases Session.ended_of_attend rfl hattend with ⟨hgoing, hgoes⟩ | ⟨hended, hret⟩
  · rw [hgoing]
    cases hobstacle : stdin.obstacle with
    | none => exact .inl ⟨rfl, .sitting hmode hattend (.inl ⟨hgoing, hobstacle, hgoes⟩)⟩
    | some reason =>
      refine .inr ⟨.undecodable reason, m.toCore, ?_, .exhausted hmode hattend hgoing hobstacle⟩
      rw [hcore]
  · rw [hended]
    exact .inl ⟨rfl, .sitting hmode hattend (.inr ⟨hended, hret⟩)⟩

theorem concluded_of_stepProgram {ending : Ending} {console : Console} {records : List Record}
    (hmode : o.interactive = true)
    (hquiet : ∀ text ∈ putOut o w entry stdin fuel, firstSurrogates? text = none)
    (h : stepProgram w entry (openConsole o w stdin) stdin = (ending, console, records)) :
    Concluded o w entry stdin fuel ending console := by
  rw [putOut, if_pos hmode] at hquiet
  rcases hattend : Session.attend {} (stepper w entry) stdin.lines with ⟨result, m⟩
  rw [hattend] at hquiet
  obtain ⟨s, htake, halike, hsession⟩ := Sitting.takeLines_of_attend (w := w)
    (s := openSitting o w entry stdin) rfl rfl (.refl _) rfl hattend (by
      intro text htext
      rw [openSitting, encoding_openConsole]
      exact hquiet text htext)
  have hkept : ∀ c, Shows o w entry stdin fuel c → s.console.Extends c := by
    intro c hc
    have hextends (k : Nat) :=
      Sitting.extends_takeLines_take w (openSitting o w entry stdin) stdin.lines k
    rw [htake] at hextends
    cases hc with
    | opened => exact hextends 0
    | run hmode' => exact absurd (hmode.symm.trans hmode') nofun
    | sitting _ k => exact hextends k
  rw [stepProgram] at h
  rw [openSitting, stepper] at htake
  rw [htake] at h
  cases result with
  | error fault =>
    cases h
    refine ⟨.inr ⟨fault, m.toCore, ?_, .sitting hmode hattend⟩, hkept⟩
    rw [halike.core]
  | ok session =>
    cases h
    exact ⟨ending_of_attend hmode hattend (hsession session rfl) halike.core, hkept⟩

end Command

end WordMachine
