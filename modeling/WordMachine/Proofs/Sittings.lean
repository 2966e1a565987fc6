import WordMachine.Command.Outcome
import WordMachine.Proofs.Interchange
import WordMachine.Proofs.Stepping

/-!
# Sittings

A sitting steps its machine once for each line of input that it reads. The line is handed to the
program exactly if the step before waits for one, so the lines that are handed over are those which
a run would take, and no text of the program is lost or written twice.

## Main definitions

* `Sitting.Ready`: a sitting that is about to read a line
* `Iteration`: what a sitting does with one line
* `Sitting.readings`, `handedOver`: the lines that a sitting reads, and those that it hands over
* `Followed`: the run that a sitting has followed

## Main results

* `Sitting.iteration`: one line of a sitting
* `Sitting.lossless_of_takeLines`: a whole sitting and the run on the lines that it hands over
-/

namespace WordMachine

namespace Machine

variable {m a : Machine Buffer} {given rest rest' : List String}

/-- Two machines that have a line if they ask for one, the same line, step in the same way. -/
theorem matched_of_given (h : Alike m a) (hm : m.terminal.queue = given ++ rest)
    (ha : a.terminal.queue = given ++ rest')
    (hgiven : given.length = (promptsOf m.exchange?.toList).length) :
    ∃ t u, Matched t u m.step a.step ∧ Buffer.Behind m.exchange?.toList m.terminal t ∧
      t.queue = rest ∧ Buffer.Behind m.exchange?.toList a.terminal u ∧ u.queue = rest' := by
  obtain ⟨t, ht, hbehind, hrest⟩ := Buffer.exists_answer hm hgiven
  obtain ⟨u, hu, hbehind', hrest'⟩ := Buffer.exists_answer ha hgiven
  exact ⟨t, u, h.step ht hu, hbehind, hrest, hbehind', hrest'⟩

/-- A step that puts out a text on a buffer does not fail. -/
theorem textsOf_of_fault {fault : Fault} {n : Machine Buffer} (h : m.step = (.error fault, n)) :
    textsOf m.exchange?.toList = [] := by
  rcases he : m.exchange? with _ | prompt | content
  · rfl
  · rfl
  · obtain ⟨words, n', hstep⟩ := step_of_text he rfl
    cases h.symm.trans hstep

/-- The machine whose texts have been taken away. -/
def cleared (m : Machine Buffer) : Machine Buffer :=
  { m with terminal := { m.terminal with output := #[] } }

theorem alike_cleared (m : Machine Buffer) : Alike m m.cleared :=
  ⟨rfl, rfl⟩

theorem cleared_of_output (h : m.terminal.output = #[]) : m.cleared = m := by
  rw [cleared, ← h]

end Machine

namespace Command

/-! ## What a sitting writes -/

/-- The console with texts written, one line for each. -/
def printed (c : Console) (texts : List (List CodePoint)) : Console :=
  texts.foldl (fun c text => c.writeLine text) c

theorem printOutput_of_takes {c : Console} {texts : List (List CodePoint)}
    (h : ∀ text ∈ texts, c.encoding.Takes text) :
    printOutput c texts = (.ok (), printed c texts) := by
  induction texts generalizing c with
  | nil => rfl
  | cons text texts ih =>
    obtain ⟨hfirst, hrest⟩ := List.forall_mem_cons.mp h
    rw [printOutput, Console.emit_of_takes hfirst]
    exact ih hrest

theorem printOutput_of_not_takes {c : Console} {text : List CodePoint}
    (h : ¬c.encoding.Takes text) :
    ∃ cause, printOutput c [text] = (.error (.unencodable cause), c) := by
  obtain ⟨cause, hemit⟩ := Console.emit_of_not_takes h
  exact ⟨cause, by rw [printOutput, hemit]⟩

namespace Sitting

/-- The console with the line that says where the program is. -/
def announced (s : Sitting) : Console :=
  print s.console ("PC: " ++ Word.hex s.machine.registers.counter)

/-! ## One line -/

/-- A sitting that is about to read a line: nothing waits to be taken or to be written, and the
program waits for a line just if it asks for one. -/
structure Ready (s : Sitting) : Prop where
  /-- The program has not ended. -/
  running : s.session.running = true
  /-- No line waits to be taken. -/
  queue : s.machine.terminal.queue = []
  /-- No text waits to be written. -/
  output : s.machine.terminal.output = #[]
  /-- A program that waits for a line asks for it in its next step. -/
  due : s.session.awaiting = true → s.machine.exchange? = some (.line s.session.prompt)

/-- The lines that are handed to the program when a line is read: this line without the blanks at
its ends, if the program waits for one. -/
def handed (s : Sitting) (line : List Char) : List String :=
  if s.session.awaiting then [String.ofList (Text.trim line)] else []

theorem length_handed (s : Sitting) (line : List Char) :
    (s.handed line).length = s.session.awaiting.toNat := by
  unfold handed
  cases s.session.awaiting <;> rfl

variable {s : Sitting}

theorem alike_handOver (s : Sitting) (line : List Char) :
    Machine.Alike s.machine (s.handOver line).machine := by
  unfold handOver
  split <;> exact ⟨rfl, rfl⟩

theorem handOver_queue (h : s.Ready) (line : List Char) :
    (s.handOver line).machine.terminal.queue = s.handed line := by
  unfold handOver handed
  split
  · simp [Buffer.feed, h.queue]
  · exact h.queue

theorem handOver_output (h : s.Ready) (line : List Char) :
    (s.handOver line).machine.terminal.output = #[] := by
  unfold handOver
  split <;> exact h.output

@[simp] theorem handOver_session (s : Sitting) (line : List Char) :
    (s.handOver line).session = s.session := by
  unfold handOver
  split <;> rfl

@[simp] theorem handOver_console (s : Sitting) (line : List Char) :
    (s.handOver line).console = s.console := by
  unfold handOver
  split <;> rfl

@[simp] theorem handOver_counter (s : Sitting) (line : List Char) :
    (s.handOver line).machine.registers.counter = s.machine.registers.counter := by
  unfold handOver
  split <;> rfl

end Sitting

/-- What a sitting does with a line of input. -/
inductive Iteration (w : Workspace) (s : Sitting) (line : List Char) :
    Except Fault Bool × Sitting → Prop
  /-- The program asks for a line: the sitting waits for the next one and shows the prompt. -/
  | waits {prompt : String} {s' : Sitting} (hdue : s.machine.exchange? = some (.line prompt))
      (hawaiting : s.session.awaiting = false) (hmachine : s'.machine = s.machine.noteTrace)
      (hsession : s'.session = { awaiting := true, prompt })
      (hconsole : s'.console = print s.announced prompt) : Iteration w s line (.ok true, s')
  /-- An instruction is executed, with the line that was handed over if it takes one. All that it
  puts out is written, and then the core. -/
  | goes {words : Nat} {n : Machine Buffer} {s' : Sitting}
      (hgiven : (s.handed line).length = (promptsOf s.machine.exchange?.toList).length)
      (hstep : (s.handOver line).machine.step = (.ok (.went words), n))
      (htakes : ∀ text ∈ textsOf s.machine.exchange?.toList, s.console.encoding.Takes text)
      (hmachine : s'.machine = n.cleared) (hsession : s'.session = {})
      (hconsole : s'.console = print (printCore
        (printed s.announced (textsOf s.machine.exchange?.toList)) n.toCore w) "---") :
      Iteration w s line (.ok true, s')
  /-- The program ends. -/
  | ends {s' : Sitting} (hret : s.machine.opcode = returnOpcode)
      (hmachine : s'.machine = s.machine.cleared) (hsession : s'.session = { running := false })
      (hconsole : s'.console =
        print (print (printCore s.announced s.machine.toCore w) "---") "Execution finished") :
      Iteration w s line (.ok false, s')
  /-- An instruction fails, of itself and not for want of a line. -/
  | fails {fault : Fault} {n : Machine Buffer} {s' : Sitting}
      (hgiven : (s.handed line).length = (promptsOf s.machine.exchange?.toList).length)
      (hstep : (s.handOver line).machine.step = (.error fault, n)) (hfault : ¬fault.IsRefusal)
      (hmachine : s'.machine = n) (hsession : s'.session = s.session)
      (hconsole : s'.console = s.announced) : Iteration w s line (.error fault, s')
  /-- An instruction is executed that puts out a text which the console cannot write. -/
  | refused {words : Nat} {n : Machine Buffer} {text : List CodePoint} {cause : Unencodable}
      {s' : Sitting}
      (hgiven : (s.handed line).length = (promptsOf s.machine.exchange?.toList).length)
      (hout : s.machine.exchange? = some (.text text))
      (hstep : (s.handOver line).machine.step = (.ok (.went words), n))
      (hrefused : ¬s.console.encoding.Takes text) (hmachine : s'.machine = n)
      (hconsole : s'.console = s.announced) :
      Iteration w s line (.error (.unencodable cause), s')

namespace Sitting

variable {w : Workspace} {s : Sitting} {line : List Char}

/-! The sitting after a line, by the step of its session and what the console can write. -/

section TakeLine

variable {session : Session} {n : Machine Buffer} {running : Bool} {fault : Fault}
  {console : Console}

theorem takeLine_of_printed
    (hstep : s.session.step (s.handOver line).machine = (.ok running, session, n))
    (hprint : printOutput s.announced n.terminal.output.toList = (.ok (), console)) :
    ∃ records, s.takeLine w line =
      if session.awaiting then
        (.ok true, ⟨session, n.cleared, print console session.prompt, records⟩)
      else if running then
        (.ok true, ⟨session, n.cleared, print (printCore console n.toCore w) "---", records⟩)
      else
        (.ok false, ⟨session, n.cleared,
          print (print (printCore console n.toCore w) "---") "Execution finished", records⟩) := by
  unfold takeLine step flush
  simp only [handOver_session, handOver_console, handOver_counter, hstep]
  rw [announced] at hprint
  simp only [hprint]
  exact ⟨_, rfl⟩

theorem takeLine_of_fault
    (hstep : s.session.step (s.handOver line).machine = (.error fault, session, n)) :
    ∃ records, s.takeLine w line = (.error fault, ⟨session, n, s.announced, records⟩) := by
  unfold takeLine step
  simp only [handOver_session, handOver_console, handOver_counter, hstep]
  exact ⟨_, rfl⟩

theorem takeLine_of_unprinted
    (hstep : s.session.step (s.handOver line).machine = (.ok running, session, n))
    (hprint : printOutput s.announced n.terminal.output.toList = (.error fault, console)) :
    ∃ records, s.takeLine w line = (.error fault, ⟨session, n, console, records⟩) := by
  unfold takeLine step flush
  simp only [handOver_session, handOver_console, handOver_counter, hstep]
  rw [announced] at hprint
  simp only [hprint]
  exact ⟨_, rfl⟩

end TakeLine

/-- A program that asks for a line is not stepped, but waits for the next one. -/
theorem iteration_of_due {prompt : String} (h : s.Ready)
    (hdue : s.machine.exchange? = some (.line prompt)) (hawaiting : s.session.awaiting = false) :
    Iteration w s line (s.takeLine w line) := by
  have hover : s.handOver line = s := by rw [handOver, hawaiting, if_neg Bool.false_ne_true]
  have hanswer : answer s.machine.terminal s.machine.exchange? = .error (.inputPending prompt) := by
    have hnone : Terminal.request prompt s.machine.terminal = none :=
      Buffer.request_eq_none_iff.mpr h.queue
    rw [hdue, answer, hnone]
    rfl
  have hsession : s.session.step (s.handOver line).machine = (.ok true,
      { awaiting := true, prompt }, s.machine.noteTrace) := by
    rw [hover, Session.step, if_pos h.running, Machine.step_of_refusal hanswer]
    dsimp only
    rw [h.running]
  have hprint : printOutput s.announced s.machine.noteTrace.terminal.output.toList =
      (.ok (), s.announced) := by
    rw [Machine.noteTrace_terminal, h.output]
    rfl
  have hcleared : s.machine.noteTrace.cleared = s.machine.noteTrace :=
    Machine.cleared_of_output (by rw [Machine.noteTrace_terminal, h.output])
  obtain ⟨records, htake⟩ := takeLine_of_printed (w := w) hsession hprint
  rw [htake, if_pos rfl]
  exact .waits hdue hawaiting hcleared rfl rfl

theorem Ready.awaiting_of_none (h : s.Ready) (hnone : s.machine.exchange? = none) :
    s.session.awaiting = false := by
  rw [Bool.eq_false_iff]
  intro hawaiting
  rw [h.due hawaiting] at hnone
  cases hnone

theorem length_handed_of_not_due (h : s.Ready) (line : List Char)
    (hwaits : ¬(s.session.awaiting = false ∧ ∃ prompt, s.machine.exchange? = some (.line prompt))) :
    (s.handed line).length = (promptsOf s.machine.exchange?.toList).length := by
  rw [length_handed]
  cases hawaiting : s.session.awaiting with
  | true =>
    rw [h.due hawaiting]
    rfl
  | false =>
    rcases he : s.machine.exchange? with _ | prompt | text
    · rfl
    · exact absurd ⟨hawaiting, prompt, he⟩ hwaits
    · rfl

/-- The step of a sitting and the step of a run that has the line which the sitting hands over. -/
structure SteppedAlike (s : Sitting) (line : List Char) (a : Machine Buffer) (rest : List String) :
    Prop where
  /-- The results are the same. -/
  result : a.step.1 = (s.handOver line).machine.step.1
  /-- A fault is none of the buffer. -/
  fault : ∀ f, (s.handOver line).machine.step.1 = .error f → ¬f.IsRefusal
  /-- The machines are alike. -/
  alike : Machine.Alike (s.handOver line).machine.step.2 a.step.2
  /-- The line that was handed over is taken. -/
  queue : (s.handOver line).machine.step.2.terminal.queue = []
  /-- The texts that the step puts out wait to be written. -/
  output : (s.handOver line).machine.step.2.terminal.output.toList =
    textsOf s.machine.exchange?.toList
  /-- The buffer of the run has answered too. -/
  behind : Buffer.Behind s.machine.exchange?.toList a.terminal a.step.2.terminal
  /-- The run has its other lines left. -/
  rest : a.step.2.terminal.queue = rest

theorem steppedAlike {a : Machine Buffer} {rest : List String} (h : s.Ready)
    (hgiven : (s.handed line).length = (promptsOf s.machine.exchange?.toList).length)
    (halike : Machine.Alike s.machine a) (hqueue : a.terminal.queue = s.handed line ++ rest) :
    SteppedAlike s line a rest := by
  have hover := alike_handOver s line
  have hhanded : (s.handOver line).machine.terminal.queue = s.handed line ++ [] := by
    rw [handOver_queue h, List.append_nil]
  rw [← hover.exchange?_eq] at hgiven
  obtain ⟨t, u, ⟨hresult, hfault, hnext, rfl, rfl⟩, hbehind, hempty, hbehind', hrest⟩ :=
    Machine.matched_of_given (hover.symm.trans halike) hhanded hqueue hgiven
  rw [hover.exchange?_eq] at hbehind hbehind'
  refine ⟨hresult, hfault, hnext, hempty, ?_, hbehind', hrest⟩
  rw [hbehind.output, handOver_output h]
  rfl

/-- An instruction that fails on a line. -/
theorem iteration_of_fault {fault : Fault} {n : Machine Buffer} (h : s.Ready)
    (hgiven : (s.handed line).length = (promptsOf s.machine.exchange?.toList).length)
    (hstep : (s.handOver line).machine.step = (.error fault, n)) (hfault : ¬fault.IsRefusal) :
    Iteration w s line (s.takeLine w line) := by
  have hsession : s.session.step (s.handOver line).machine = (.error fault, s.session, n) := by
    rw [Session.step, if_pos h.running, hstep]
    cases fault with
    | inputPending prompt => exact absurd (.inputPending prompt) hfault
    | _ => rfl
  obtain ⟨records, htake⟩ := takeLine_of_fault (w := w) hsession
  rw [htake]
  exact .fails hgiven hstep hfault rfl rfl rfl

/-- The end of the program. -/
theorem iteration_of_end {n : Machine Buffer} (h : s.Ready)
    (hstep : (s.handOver line).machine.step = (.ok .ended, n)) :
    Iteration w s line (s.takeLine w line) := by
  obtain ⟨hret, rfl⟩ := Machine.step_eq_ended_iff.mp hstep
  have hret : s.machine.opcode = returnOpcode := by
    rwa [Core.opcode, (alike_handOver s line).core] at hret
  have hawaiting := h.awaiting_of_none (Machine.exchange?_of_return hret)
  have hover : s.handOver line = s := by rw [handOver, hawaiting, if_neg Bool.false_ne_true]
  have hsession : s.session.step (s.handOver line).machine =
      (.ok false, { running := false }, (s.handOver line).machine) := by
    rw [Session.step, if_pos h.running, hstep]
  have hprint : printOutput s.announced (s.handOver line).machine.terminal.output.toList =
      (.ok (), s.announced) := by
    rw [handOver_output h]
    rfl
  obtain ⟨records, htake⟩ := takeLine_of_printed (w := w) hsession hprint
  rw [htake, if_neg Bool.false_ne_true, if_neg Bool.false_ne_true, hover]
  exact .ends hret rfl rfl rfl

/-- An instruction that is executed: either all that it puts out is written, or nothing is. -/
theorem iteration_of_went {words : Nat} {n : Machine Buffer} (h : s.Ready)
    (hgiven : (s.handed line).length = (promptsOf s.machine.exchange?.toList).length)
    (hstep : (s.handOver line).machine.step = (.ok (.went words), n))
    (htexts : n.terminal.output.toList = textsOf s.machine.exchange?.toList) :
    Iteration w s line (s.takeLine w line) := by
  have hsession : s.session.step (s.handOver line).machine = (.ok true, {}, n) := by
    rw [Session.step, if_pos h.running, hstep]
  by_cases htakes : ∀ text ∈ textsOf s.machine.exchange?.toList, s.console.encoding.Takes text
  · have hprint := printOutput_of_takes (c := s.announced) htakes
    rw [← htexts] at hprint
    obtain ⟨records, htake⟩ := takeLine_of_printed (w := w) hsession hprint
    rw [htake, if_neg Bool.false_ne_true, if_pos rfl, htexts]
    exact .goes hgiven hstep htakes rfl rfl rfl
  · push Not at htakes
    obtain ⟨text, htext, hrefused⟩ := htakes
    have hout := mem_textsOf_toList.mp htext
    obtain ⟨cause, hprint⟩ := printOutput_of_not_takes (c := s.announced) hrefused
    have hone : n.terminal.output.toList = [text] := by
      rw [htexts, hout]
      rfl
    rw [← hone] at hprint
    obtain ⟨records, htake⟩ := takeLine_of_unprinted (w := w) hsession hprint
    rw [htake]
    exact .refused hgiven hout hstep hrefused rfl rfl

/-- What a sitting does with a line. -/
theorem iteration (h : s.Ready) (line : List Char) :
    Iteration w s line (s.takeLine w line) := by
  by_cases hwaits : s.session.awaiting = false ∧ ∃ prompt, s.machine.exchange? = some (.line prompt)
  · obtain ⟨hawaiting, prompt, hdue⟩ := hwaits
    exact iteration_of_due h hdue hawaiting
  · -- the line that the program asks for was handed over, if it asks for one
    have hgiven := length_handed_of_not_due h line hwaits
    have hqueue : (s.handOver line).machine.terminal.queue = s.handed line ++ [] := by
      rw [handOver_queue h, List.append_nil]
    obtain ⟨-, hfault, -, -, htexts, -, -⟩ :=
      steppedAlike h hgiven (alike_handOver s line) hqueue
    rcases hstep : (s.handOver line).machine.step with ⟨fault | _ | words, n⟩ <;>
      rw [hstep] at hfault htexts
    · exact iteration_of_fault h hgiven hstep (hfault fault rfl)
    · exact iteration_of_end h hstep
    · exact iteration_of_went h hgiven hstep htexts

theorem Ready.of_waits {prompt : String} {s' : Sitting} (h : s.Ready)
    (hdue : s.machine.exchange? = some (.line prompt)) (hmachine : s'.machine = s.machine.noteTrace)
    (hsession : s'.session = { awaiting := true, prompt }) : s'.Ready where
  running := by rw [hsession]
  queue := by rw [hmachine, Machine.noteTrace_terminal, h.queue]
  output := by rw [hmachine, Machine.noteTrace_terminal, h.output]
  due _ := by rw [hmachine, s.machine.alike_noteTrace.exchange?_eq, hdue, hsession]

theorem Ready.of_goes {words : Nat} {n : Machine Buffer} {s' : Sitting} (h : s.Ready)
    (hgiven : (s.handed line).length = (promptsOf s.machine.exchange?.toList).length)
    (hstep : (s.handOver line).machine.step = (.ok (.went words), n))
    (hmachine : s'.machine = n.cleared) (hsession : s'.session = {}) : s'.Ready where
  running := by rw [hsession]
  queue := by
    have hqueue : (s.handOver line).machine.terminal.queue = s.handed line ++ [] := by
      rw [handOver_queue h, List.append_nil]
    have hempty := (steppedAlike h hgiven (alike_handOver s line) hqueue).queue
    rw [hstep] at hempty
    rw [hmachine]
    exact hempty
  output := by
    rw [hmachine]
    rfl
  due hawaiting := by
    rw [hsession] at hawaiting
    cases hawaiting

/-! ## All lines -/

/-- A line that is read in a sitting. -/
structure Reading where
  /-- The sitting before the line is read. -/
  sitting : Sitting
  /-- The line. -/
  line : List Char

/-- The lines that a sitting reads. -/
def readings (w : Workspace) : Sitting → List (List Char) → List Reading
  | _, [] => []
  | s, line :: lines =>
    ⟨s, line⟩ ::
      match s.takeLine w line with
      | (.ok true, s) => readings w s lines
      | _ => []

/-- The lines that are handed to the program, of those that are read. -/
def handedOver (rs : List Reading) : List String :=
  rs.flatMap fun r => r.sitting.handed r.line

/-- The texts that the program puts out while lines are read. -/
def textsPutOut (rs : List Reading) : List (List CodePoint) :=
  rs.flatMap fun r => textsOf r.sitting.machine.exchange?.toList

/-- A run has followed a sitting for a number of instructions. -/
structure Followed (lines : List (List Char)) (rs : List Reading) (a : Machine Buffer) (n : Nat)
    (b : Machine Buffer) : Prop where
  /-- The sitting has read its lines in order. -/
  lines : rs.map Reading.line <+: lines
  /-- The run has come to a machine. -/
  reach : a.after n = some b
  /-- Its buffer has answered what the instructions asked for. -/
  behind : Buffer.Behind (Machine.talk none n 0 a) a.terminal b.terminal
  /-- They have put out the same texts as in the sitting. -/
  texts : textsPutOut rs = textsOf (Machine.talk none n 0 a)

/-- How a sitting ends that has read some lines, when a run has followed it with a number of
instructions and come to a machine. -/
inductive Concluded (s : Sitting) (lines : List (List Char)) (rs : List Reading) (n : Nat)
    (b : Machine Buffer) : Except Fault Unit × Sitting → Prop
  /-- The program has ended. -/
  | finished {s' : Sitting} (hsession : s'.session = { running := false })
      (hstep : b.step = (.ok .ended, b)) (hcore : b.toCore = s'.machine.toCore)
      (hqueue : b.terminal.queue = [])
      (hcount : rs.length + s.session.awaiting.toNat = n + (handedOver rs).length + 1) :
      Concluded s lines rs n b (.ok (), s')
  /-- There is no line left. -/
  | exhausted {s' : Sitting} (hready : s'.Ready) (hlines : rs.map Reading.line = lines)
      (hcore : b.toCore = s'.machine.toCore) (hqueue : b.terminal.queue = [])
      (hcount : rs.length + s.session.awaiting.toNat =
        n + (handedOver rs).length + s'.session.awaiting.toNat) :
      Concluded s lines rs n b (.ok (), s')
  /-- The next instruction fails. -/
  | failed {fault : Fault} {b' : Machine Buffer} {s' : Sitting}
      (hstep : b.step = (.error fault, b')) (hfault : ¬fault.IsRefusal)
      (hcore : b'.toCore = s'.machine.toCore) (hqueue : b'.terminal.queue = []) :
      Concluded s lines rs n b (.error fault, s')
  /-- The console cannot write the last text. -/
  | refused {text : List CodePoint} {cause : Unencodable} {s' : Sitting}
      (htext : text ∈ textsPutOut rs) (hrefused : ¬s'.console.encoding.Takes text)
      (hcore : b.toCore = s'.machine.toCore) (hqueue : b.terminal.queue = []) :
      Concluded s lines rs n b (.error (.unencodable cause), s')

variable {lines : List (List Char)} {rs : List Reading} {a a' b : Machine Buffer} {n : Nat}

theorem Followed.refl (lines : List (List Char)) (a : Machine Buffer) : Followed lines [] a 0 a :=
  ⟨List.nil_prefix, rfl, .refl _, rfl⟩

/-- A line with which nothing is put out may be the last one. -/
theorem followed_of_last (line : List Char) (lines : List (List Char)) (a : Machine Buffer)
    (htexts : textsOf s.machine.exchange?.toList = []) :
    Followed (line :: lines) [⟨s, line⟩] a 0 a := by
  refine ⟨List.cons_prefix_cons.mpr ⟨rfl, List.nil_prefix⟩, rfl, .refl _, ?_⟩
  rw [textsPutOut, List.flatMap_cons, htexts]
  rfl

/-- While the sitting waits for a line the run waits for it. -/
theorem Followed.waits {prompt : String} (h : Followed lines rs a n b)
    (hdue : s.machine.exchange? = some (.line prompt)) :
    Followed (line :: lines) (⟨s, line⟩ :: rs) a n b := by
  refine ⟨List.cons_prefix_cons.mpr ⟨rfl, h.lines⟩, h.reach, h.behind, ?_⟩
  rw [← h.texts, textsPutOut, List.flatMap_cons, hdue]
  rfl

/-- When the sitting executes an instruction the run executes it too. -/
theorem Followed.goes {words : Nat} (h : Followed lines rs a' n b)
    (halike : Machine.Alike s.machine a) (hstep : a.step = (.ok (.went words), a'))
    (hbehind : Buffer.Behind s.machine.exchange?.toList a.terminal a'.terminal) :
    Followed (line :: lines) (⟨s, line⟩ :: rs) a (n + 1) b := by
  have htalk : Machine.talk none (n + 1) 0 a =
      s.machine.exchange?.toList ++ Machine.talk none n 0 a' := by
    rw [Machine.talk_of_went hstep, halike.exchange?_eq]
  refine ⟨List.cons_prefix_cons.mpr ⟨rfl, h.lines⟩, ?_, ?_, ?_⟩
  · rw [Machine.after_succ hstep, h.reach]
  · rw [htalk]
    exact hbehind.trans h.behind
  · rw [htalk, textsOf_append, ← h.texts]
    rfl

/-- A line more is read for an instruction more, or to wait for it. -/
theorem Concluded.cons {s₁ : Sitting} {k : Nat} {o : Except Fault Unit × Sitting}
    (h : Concluded s₁ lines rs n b o)
    (hcount : 1 + s.session.awaiting.toNat =
      k + (s.handed line).length + s₁.session.awaiting.toNat) :
    Concluded s (line :: lines) (⟨s, line⟩ :: rs) (n + k) b o := by
  have hhanded : (handedOver (⟨s, line⟩ :: rs)).length =
      (s.handed line).length + (handedOver rs).length := by
    rw [handedOver, List.flatMap_cons, List.length_append]
    rfl
  cases h with
  | finished hsession hstep hcore hqueue hrest =>
    refine .finished hsession hstep hcore hqueue ?_
    rw [hhanded, List.length_cons]
    omega
  | exhausted hready hlines hcore hqueue hrest =>
    refine .exhausted hready (congrArg _ hlines) hcore hqueue ?_
    rw [hhanded, List.length_cons]
    omega
  | failed hstep hfault hcore hqueue => exact .failed hstep hfault hcore hqueue
  | refused htext hrefused hcore hqueue =>
    exact .refused (List.mem_append_right _ htext) hrefused hcore hqueue

/-- A sitting that stops with a line: the run that has the line, if it is handed over, stops in the
same way. -/
theorem followed_of_stop {o : Except Fault Bool × Sitting} (hiteration : Iteration w s line o)
    (hstop : o.1 ≠ .ok true) (h : s.Ready) (halike : Machine.Alike s.machine a)
    (hqueue : a.terminal.queue = handedOver [⟨s, line⟩]) :
    ∃ n b, Followed (line :: lines) [⟨s, line⟩] a n b ∧
      Concluded s (line :: lines) [⟨s, line⟩] n b (o.1.map fun _ => (), o.2) := by
  cases hiteration with
  | waits | goes => exact absurd rfl hstop
  | @ends s' hret hmachine hsession hconsole =>
    have hnone := Machine.exchange?_of_return hret
    have hhanded : s.handed line = [] := by
      rw [handed, h.awaiting_of_none hnone, if_neg Bool.false_ne_true]
    rw [handedOver, List.flatMap_cons, hhanded] at hqueue
    have hstep : a.step = (.ok .ended, a) := by
      refine Machine.step_eq_ended_iff.mpr ⟨?_, rfl⟩
      rwa [Core.opcode, halike.core]
    refine ⟨0, a, followed_of_last line lines a (by rw [hnone]; rfl),
      .finished hsession hstep ?_ hqueue ?_⟩
    · rw [hmachine]
      exact halike.core
    · rw [h.awaiting_of_none hnone, handedOver, List.flatMap_cons, hhanded]
      rfl
  | @fails fault n₁ s' hgiven hstep hfault hmachine hsession hconsole =>
    obtain ⟨hresult, -, hnext, -, -, -, hrest⟩ := steppedAlike h hgiven halike hqueue
    rw [hstep] at hresult hnext
    have hstep' : a.step = (.error fault, a.step.2) := Prod.ext hresult rfl
    have htexts := Machine.textsOf_of_fault hstep
    rw [(alike_handOver s line).exchange?_eq] at htexts
    refine ⟨0, a, followed_of_last line lines a htexts, .failed hstep' hfault ?_ hrest⟩
    rw [hmachine]
    exact hnext.core
  | @refused words n₁ text cause s' hgiven hout hstep hrefused hmachine hconsole =>
    -- the run has executed the instruction, and its buffer has taken the text
    obtain ⟨hresult, -, hnext, -, -, hbehind, hrest⟩ := steppedAlike h hgiven halike hqueue
    rw [hstep] at hresult hnext
    have hstep' : a.step = (.ok (.went words), a.step.2) := Prod.ext hresult rfl
    refine ⟨1, a.step.2, (Followed.refl lines _).goes halike hstep' hbehind, ?_⟩
    have htext : text ∈ textsPutOut [⟨s, line⟩] :=
      List.mem_append_left _ (mem_textsOf_toList.mpr hout)
    refine .refused htext ?_ ?_ hrest
    · rw [hconsole]
      exact hrefused
    · rw [hmachine]
      exact hnext.core

/-- A run that has the lines from the beginning which a sitting hands over follows the sitting to
its end. -/
theorem followed_of_takeLines (h : s.Ready) (halike : Machine.Alike s.machine a)
    (hqueue : a.terminal.queue = handedOver (readings w s lines)) :
    ∃ n b, Followed lines (readings w s lines) a n b ∧
      Concluded s lines (readings w s lines) n b (s.takeLines w lines) := by
  -- Induction on the lines; the run takes a step for each line that does not make the sitting wait.
  induction lines generalizing s a with
  | nil =>
    refine ⟨0, a, .refl _ a, .exhausted h rfl halike.core hqueue ?_⟩
    simp [readings, handedOver]
  | cons line lines ih =>
    have hiteration := iteration (w := w) h line
    rw [readings] at hqueue ⊢
    rw [takeLines]
    generalize s.takeLine w line = o at hiteration hqueue ⊢
    cases hiteration with
    | @waits prompt s' hdue hawaiting hmachine hsession hconsole =>
      have hhanded : s.handed line = [] := by rw [handed, hawaiting, if_neg Bool.false_ne_true]
      have halike' : Machine.Alike s'.machine a := by
        rw [hmachine]
        exact s.machine.alike_noteTrace.symm.trans halike
      rw [handedOver, List.flatMap_cons, hhanded, List.nil_append] at hqueue
      obtain ⟨n, b, hfollowed, hconcluded⟩ := ih (h.of_waits hdue hmachine hsession) halike' hqueue
      refine ⟨n, b, hfollowed.waits hdue, hconcluded.cons (k := 0) ?_⟩
      rw [hhanded, hawaiting, hsession]
      rfl
    | @goes words n₁ s' hgiven hstep htakes hmachine hsession hconsole =>
      obtain ⟨hresult, -, hnext, -, -, hbehind, hrest⟩ := steppedAlike h hgiven halike hqueue
      rw [hstep] at hresult hnext
      have hstep' : a.step = (.ok (.went words), a.step.2) := Prod.ext hresult rfl
      have hready : s'.Ready := h.of_goes hgiven hstep hmachine hsession
      have halike' : Machine.Alike s'.machine a.step.2 := by
        rw [hmachine]
        exact n₁.alike_cleared.symm.trans hnext
      obtain ⟨n, b, hfollowed, hconcluded⟩ := ih hready halike' hrest
      refine ⟨n + 1, b, hfollowed.goes halike hstep' hbehind, hconcluded.cons ?_⟩
      rw [length_handed, hsession]
      rfl
    | ends hret hmachine hsession hconsole =>
      exact followed_of_stop (w := w) (.ends hret hmachine hsession hconsole) nofun h halike hqueue
    | fails hgiven hstep hfault hmachine hsession hconsole =>
      exact followed_of_stop (w := w) (.fails hgiven hstep hfault hmachine hsession hconsole)
        nofun h halike hqueue
    | refused hgiven hout hstep hrefused hmachine hconsole =>
      exact followed_of_stop (w := w) (.refused hgiven hout hstep hrefused hmachine hconsole)
        nofun h halike hqueue

/-! ## Whole sittings -/

/-- The step of a sitting makes it wait for a line. -/
def Reading.Waits (r : Reading) : Prop :=
  r.sitting.session.awaiting = false ∧ ∃ prompt, r.sitting.machine.exchange? = some (.line prompt)

/-- One line is read behind another; it is handed over just if the step for the other waits. -/
structure Reading.Precedes (w : Workspace) (r r' : Reading) : Prop where
  /-- The sitting goes on with the line. -/
  next : r.sitting.takeLine w r.line = (.ok true, r'.sitting)
  /-- The sitting waits for the line just if it has found none. -/
  awaiting : r'.sitting.session.awaiting = true ↔ r.Waits

theorem awaiting_iff_of_iteration {s' : Sitting} (h : Iteration w s line (.ok true, s')) :
    s'.session.awaiting = true ↔ Reading.Waits ⟨s, line⟩ := by
  cases h with
  | waits hdue hawaiting hmachine hsession hconsole =>
    rw [hsession]
    exact ⟨fun _ => ⟨hawaiting, _, hdue⟩, fun _ => rfl⟩
  | goes hgiven hstep htakes hmachine hsession hconsole =>
    rw [hsession]
    refine ⟨nofun, ?_⟩
    rintro ⟨hawaiting, prompt, hdue⟩
    rw [length_handed, hawaiting, hdue] at hgiven
    cases hgiven

theorem Ready.of_iteration {s' : Sitting} (h : s.Ready)
    (hgoes : Iteration w s line (.ok true, s')) : s'.Ready := by
  cases hgoes with
  | waits hdue hawaiting hmachine hsession hconsole => exact h.of_waits hdue hmachine hsession
  | goes hgiven hstep htakes hmachine hsession hconsole =>
    exact h.of_goes hgiven hstep hmachine hsession

theorem ready_of_mem_readings (h : s.Ready) : ∀ r ∈ readings w s lines, r.sitting.Ready := by
  induction lines generalizing s with
  | nil => nofun
  | cons line lines ih =>
    intro r hr
    rw [readings] at hr
    rcases List.mem_cons.mp hr with rfl | hr
    · exact h
    · have hiteration := iteration (w := w) h line
      generalize s.takeLine w line = o at hiteration hr
      split at hr
      · exact ih (h.of_iteration hiteration) r hr
      · cases hr

theorem isChain_readings (h : s.Ready) : (readings w s lines).IsChain (Reading.Precedes w) := by
  induction lines generalizing s with
  | nil => exact .nil
  | cons line lines ih =>
    have hiteration := iteration (w := w) h line
    rw [readings]
    rcases htake : s.takeLine w line with ⟨_ | _ | _, s'⟩
    · exact .singleton _
    · exact .singleton _
    · rw [htake] at hiteration
      have hrest := ih (h.of_iteration hiteration)
      cases lines with
      | nil => exact .singleton _
      | cons line' lines => exact .cons_cons ⟨htake, awaiting_iff_of_iteration hiteration⟩ hrest

/-- The sitting with which a machine is stepped at a console, with a fresh buffer. -/
def opened {σ : Type} (m : Machine σ) (c : Console) : Sitting :=
  { machine := m.onto (Buffer.holding []), console := c }

theorem ready_opened {σ : Type} (m : Machine σ) (c : Console) : (opened m c).Ready :=
  ⟨rfl, rfl, rfl, nofun⟩

/-- A line that the program does not wait for is ignored. -/
theorem takeLine_eq_of_not_awaiting (h : s.session.awaiting = false) (line line' : List Char) :
    s.takeLine w line = s.takeLine w line' := by
  have hover (l : List Char) : s.handOver l = s := by
    rw [handOver, h, if_neg Bool.false_ne_true]
  rw [takeLine, takeLine, hover, hover]

/-- A sitting that has read some lines of its input loses none of them and no text of its program,
by the run from a machine, which has come to another one with a number of instructions. -/
structure Lossless (w : Workspace) (lines : List (List Char)) (rs : List Reading)
    (a : Machine Buffer) (n : Nat) (b : Machine Buffer) (result : Except Fault Unit)
    (s' : Sitting) : Prop where
  /-- Before a line is read nothing waits to be taken or to be written. -/
  ready : ∀ r ∈ rs, r.sitting.Ready
  /-- What is done with each line. -/
  iteration : ∀ r ∈ rs, Iteration w r.sitting r.line (r.sitting.takeLine w r.line)
  /-- A line that is not waited for is ignored. -/
  ignored : ∀ r ∈ rs, r.sitting.session.awaiting = false →
    ∀ line, r.sitting.takeLine w line = r.sitting.takeLine w r.line
  /-- A line is waited for just if the step before has found none. -/
  precedes : rs.IsChain (Reading.Precedes w)
  /-- The run has followed the sitting. -/
  followed : Followed lines rs a n b
  /-- If the program has ended the run has ended in the same state, and there was a line for each
  instruction, another one for each that took a line, and one for the end. -/
  finished : result = .ok () → s'.session.running = false →
    (∀ fuel, a.execute a.registers.counter none fuel =
      if fuel ≤ n then none else some (.ok n, b)) ∧
    b.toCore = s'.machine.toCore ∧ b.terminal.queue = [] ∧
    rs.length = n + (promptsOf (Machine.talk none n 0 a)).length + 1
  /-- If the lines have come to an end before, the run has come to the same state. -/
  exhausted : result = .ok () → s'.session.running = true →
    s'.Ready ∧ rs.map Reading.line = lines ∧ b.toCore = s'.machine.toCore ∧
    b.terminal.queue = [] ∧ rs.length = n + (promptsOf (Machine.talk none n 0 a)).length +
      s'.session.awaiting.toNat
  /-- If an instruction has failed it has failed in the run, with the same fault and in the same
  state. -/
  failed : ∀ fault, result = .error fault → ¬fault.IsRefusal →
    ∃ b', (∀ fuel, a.execute a.registers.counter none fuel =
        if fuel ≤ n then none else some (.error fault, b')) ∧
      b'.toCore = s'.machine.toCore ∧ b'.terminal.queue = []
  /-- It can only fail otherwise if the console cannot write a text. -/
  refused : ∀ fault, result = .error fault → fault.IsRefusal →
    (∃ text ∈ textsPutOut rs, ¬s'.console.encoding.Takes text) ∧
      b.toCore = s'.machine.toCore ∧ b.terminal.queue = []

theorem length_handedOver {a b : Machine Buffer} (h : Followed lines rs a n b)
    (hqueue : a.terminal.queue = handedOver rs) (hempty : b.terminal.queue = []) :
    (handedOver rs).length = (promptsOf (Machine.talk none n 0 a)).length := by
  obtain ⟨given, hlength, hgiven⟩ := h.behind.queue
  rw [← hlength, ← hqueue, hgiven, hempty, List.append_nil]

/-- A run from where a machine is, with the outcome of the instruction that ends it. -/
theorem execute_of_followed (h : Followed lines rs a n b) {o : Except Fault Nat × Machine Buffer}
    (ho : b.verdict? n = some o) (fuel : Nat) :
    a.execute a.registers.counter none fuel = if fuel ≤ n then none else some o := by
  rw [← Nat.zero_add n] at ho
  exact Machine.run_of_after h.reach ho fuel

section Endings

variable {s' : Sitting} (h : Followed lines rs a n b)
  (hqueue : a.terminal.queue = handedOver rs) (hs : s.session.awaiting = false)

include h hqueue hs

theorem finished_of_concluded (hc : Concluded s lines rs n b (.ok (), s'))
    (hrunning : s'.session.running = false) :
    (∀ fuel, a.execute a.registers.counter none fuel =
      if fuel ≤ n then none else some (.ok n, b)) ∧
    b.toCore = s'.machine.toCore ∧ b.terminal.queue = [] ∧
    rs.length = n + (promptsOf (Machine.talk none n 0 a)).length + 1 := by
  cases hc with
  | finished hsession hstep hcore hempty hcount =>
    rw [length_handedOver h hqueue hempty, hs] at hcount
    exact ⟨execute_of_followed h (by rw [Machine.verdict?, hstep]), hcore, hempty, hcount⟩
  | exhausted hready hlines hcore hempty hcount =>
    rw [hready.running] at hrunning
    cases hrunning

theorem exhausted_of_concluded (hc : Concluded s lines rs n b (.ok (), s'))
    (hrunning : s'.session.running = true) :
    s'.Ready ∧ rs.map Reading.line = lines ∧ b.toCore = s'.machine.toCore ∧
    b.terminal.queue = [] ∧ rs.length = n + (promptsOf (Machine.talk none n 0 a)).length +
      s'.session.awaiting.toNat := by
  cases hc with
  | finished hsession hstep hcore hempty hcount =>
    rw [hsession] at hrunning
    cases hrunning
  | exhausted hready hlines hcore hempty hcount =>
    rw [length_handedOver h hqueue hempty, hs] at hcount
    exact ⟨hready, hlines, hcore, hempty, hcount⟩

omit hqueue hs in
theorem failed_of_concluded {fault : Fault} (hc : Concluded s lines rs n b (.error fault, s'))
    (hfault : ¬fault.IsRefusal) :
    ∃ b', (∀ fuel, a.execute a.registers.counter none fuel =
        if fuel ≤ n then none else some (.error fault, b')) ∧
      b'.toCore = s'.machine.toCore ∧ b'.terminal.queue = [] := by
  cases hc with
  | @failed _ b' _ hstep _ hcore hempty =>
    exact ⟨b', execute_of_followed h (by rw [Machine.verdict?, hstep]), hcore, hempty⟩
  | @refused _ cause _ htext hrefused hcore hempty =>
    exact absurd (.unencodable cause) hfault

end Endings

/-- **Sittings.** A sitting at the console does what the run does that has from the beginning just
the lines which are handed to the program: each is the line read next after the program has asked
for one, and all other lines only let it go on. -/
theorem lossless_of_takeLines {σ : Type} (w : Workspace) (m : Machine σ) (c : Console)
    (input : List Char) {result : Except Fault Unit} {s' : Sitting}
    (h : (opened m c).takeLines w (Text.lines input) = (result, s')) :
    ∃ n b, Lossless w (Text.lines input) (readings w (opened m c) (Text.lines input))
      (m.onto (Buffer.holding (handedOver (readings w (opened m c) (Text.lines input))))) n b result
      s' := by
  have hready := ready_opened m c
  generalize hrs : readings w (opened m c) (Text.lines input) = rs
  have halike : Machine.Alike (opened m c).machine (m.onto (Buffer.holding (handedOver rs))) :=
    ⟨rfl, rfl⟩
  have hall : ∀ r ∈ rs, r.sitting.Ready := by
    rw [← hrs]
    exact ready_of_mem_readings hready
  have hchain : rs.IsChain (Reading.Precedes w) := by
    rw [← hrs]
    exact isChain_readings hready
  have hqueue : (m.onto (Buffer.holding (handedOver rs))).terminal.queue =
      handedOver (readings w (opened m c) (Text.lines input)) := by
    rw [hrs]
    rfl
  obtain ⟨n, b, hfollowed, hconcluded⟩ := followed_of_takeLines hready halike hqueue
  rw [hrs] at hfollowed hconcluded
  rw [h] at hconcluded
  have hiteration : ∀ r ∈ rs, Iteration w r.sitting r.line (r.sitting.takeLine w r.line) :=
    fun r hr => iteration (hall r hr) r.line
  have hignored : ∀ r ∈ rs, r.sitting.session.awaiting = false →
      ∀ line, r.sitting.takeLine w line = r.sitting.takeLine w r.line :=
    fun r _ hawaiting line => takeLine_eq_of_not_awaiting hawaiting line r.line
  refine ⟨n, b, hall, hiteration, hignored, hchain, hfollowed, ?_, ?_, ?_, ?_⟩
  · rintro rfl hrunning
    exact finished_of_concluded hfollowed rfl rfl hconcluded hrunning
  · rintro rfl hrunning
    exact exhausted_of_concluded hfollowed rfl rfl hconcluded hrunning
  · rintro fault rfl hfault
    exact failed_of_concluded hfollowed hconcluded hfault
  · rintro fault rfl hfault
    cases hconcluded with
    | failed hstep hother hcore hempty => exact absurd hfault hother
    | @refused text _ _ htext hrefused hcore hempty =>
      exact ⟨⟨text, htext, hrefused⟩, hcore, hempty⟩

/-- A program that takes a line, puts it out and ends, at a console that can write it. -/
def parrot : Sitting :=
  let memory := ((∅ : Memory).load [0xF001, 20, 19, 0xF002, 20, 19, 0x8100] 0).2
  opened ({ memory, terminal := {} } : Machine Buffer) { encoding := .utf8 }

/-- Five lines for it. -/
def parrotLines : List (List Char) :=
  Text.lines "x\n ab \ny\nz\n\n".toList

/-- With the first line the program asks for the second one; the last line is not read. -/
theorem lossless_parrot :
    ∃ s' n b, parrot.takeLines {} parrotLines = (.ok (), s') ∧ s'.session.running = false ∧
      (readings {} parrot parrotLines).length = 4 ∧ parrotLines.length = 5 ∧
      textsPutOut (readings {} parrot parrotLines) = [CodePoint.ofString "ab"] ∧
      Lossless {} parrotLines (readings {} parrot parrotLines)
        (parrot.machine.onto (Buffer.holding ["ab"])) n b (.ok ()) s' := by
  have hresult : (parrot.takeLines {} parrotLines).1.toOption = some () := by decide +kernel
  have hrunning : (parrot.takeLines {} parrotLines).2.session.running = false := by decide +kernel
  have hhanded : handedOver (readings {} parrot parrotLines) = ["ab"] := by decide +kernel
  rcases h : parrot.takeLines {} parrotLines with ⟨_ | _, s'⟩ <;> rw [h] at hresult hrunning <;>
    cases hresult
  obtain ⟨n, b, hlossless⟩ := lossless_of_takeLines {} parrot.machine { encoding := .utf8 } _ h
  have hopened : opened parrot.machine { encoding := .utf8 } = parrot := rfl
  rw [hopened] at hlossless
  have hrs : readings {} parrot (Text.lines "x\n ab \ny\nz\n\n".toList) =
      readings {} parrot parrotLines := rfl
  rw [hrs, hhanded] at hlossless
  exact ⟨s', n, b, rfl, hrunning, by decide +kernel, by decide +kernel, by decide +kernel,
    hlossless⟩

end Sitting

end Command

end WordMachine
