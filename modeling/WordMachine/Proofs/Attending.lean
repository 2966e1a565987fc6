import WordMachine.Proofs.Sittings

/-!
# Attended sessions

At a console a session takes one step for each line of input, and is given the line if it waits for
one. What the sitting at the console writes in between, and that it takes away the texts which the
program has put out, does not change what the program does: the sitting ends as the attended session
ends, with the same fault if it fails. A session fails of itself only, never for want of a line.

## Main definitions

* `Session.attend`: a session that takes one step for each line
* `Machine.Abreast`: two machines have gone the same way with the same lines

## Main results

* `Machine.step_abreast`: machines that are alike and have the same lines stay so
* `Session.fault_of_attend`: why an attended session fails
* `Command.Sitting.takeLines_of_attend`: a sitting ends as the attended session does
-/

namespace WordMachine

/-! ## Machines with the same lines -/

namespace Machine

/-- Two machines have gone the same way: they are alike, have the same lines left, and have put out
the same texts. -/
structure Abreast (m a m' a' : Machine Buffer) : Prop where
  /-- The machines are alike. -/
  alike : Alike m' a'
  /-- The same lines are left. -/
  queue : a'.terminal.queue = m'.terminal.queue
  /-- The same texts were put out. -/
  output : ∃ texts, m'.terminal.output.toList = m.terminal.output.toList ++ texts ∧
    a'.terminal.output.toList = a.terminal.output.toList ++ texts

variable {m a : Machine Buffer}

theorem Abreast.of_quiet {m' a' : Machine Buffer} (h : Alike m' a')
    (hqueue : a'.terminal.queue = m'.terminal.queue) (hm : m'.terminal.output = m.terminal.output)
    (ha : a'.terminal.output = a.terminal.output) : Abreast m a m' a' :=
  ⟨h, hqueue, [], by rw [hm, List.append_nil], by rw [ha, List.append_nil]⟩

/-- Machines that are alike and have the same lines take the same step. -/
theorem step_abreast (h : Alike m a) (hqueue : a.terminal.queue = m.terminal.queue) :
    a.step.1 = m.step.1 ∧ Abreast m a m.step.2 a.step.2 := by
  by_cases hwaits : (∃ prompt, m.exchange? = some (.line prompt)) ∧ m.terminal.queue = []
  · -- both are refused for want of a line
    obtain ⟨⟨prompt, hdue⟩, hempty⟩ := hwaits
    have hrefused {b : Machine Buffer} (hb : b.exchange? = some (.line prompt))
        (hnone : b.terminal.queue = []) :
        b.step = (.error (.inputPending prompt), b.noteTrace) := by
      have hrequest : Terminal.request prompt b.terminal = none :=
        Buffer.request_eq_none_iff.mpr hnone
      refine step_of_refusal ?_
      rw [hb, answer, hrequest]
      rfl
    rw [hrefused hdue hempty, hrefused (h.exchange?_eq.trans hdue) (hqueue.trans hempty)]
    exact ⟨rfl, .of_quiet h.noteTrace (by simpa using hqueue) (by simp) (by simp)⟩
  · -- there is a line for each that is asked for
    obtain ⟨given, rest, hgiven, hlength⟩ : ∃ given rest, m.terminal.queue = given ++ rest ∧
        given.length = (promptsOf m.exchange?.toList).length := by
      rcases he : m.exchange? with _ | prompt | text
      · exact ⟨[], _, rfl, rfl⟩
      · cases hlines : m.terminal.queue with
        | nil => exact absurd ⟨⟨prompt, he⟩, hlines⟩ hwaits
        | cons line lines => exact ⟨[line], lines, rfl, rfl⟩
      · exact ⟨[], _, rfl, rfl⟩
    obtain ⟨t, u, hmatched, hm, hrest, ha, hrest'⟩ :=
      matched_of_given h hgiven (hqueue.trans hgiven) hlength
    obtain ⟨hresult, -, halike, rfl, rfl⟩ := hmatched
    exact ⟨hresult, halike, by rw [hrest, hrest'], _, hm.output, ha.output⟩

/-- A machine with a buffer fails for its opcode, of itself, or for want of a line. -/
theorem fault_of_step_buffer {fault : Fault} (h : m.step.1 = .error fault) :
    (∃ opcode address, fault = .undefinedOpcode opcode address) ∨ fault.IsOwn ∨
      ∃ prompt, fault = .inputPending prompt := by
  refine (fault_of_step h).imp_right (.imp_right fun hanswer => ?_)
  rcases he : m.exchange? with _ | prompt | text
  · rw [he] at hanswer
    cases hanswer
  · rw [he, answer] at hanswer
    split at hanswer
    · cases hanswer
    · exact ⟨prompt, (Except.error.inj hanswer).symm⟩
  · rw [he] at hanswer
    cases hanswer

end Machine

/-! ## Attended sessions -/

namespace Session

/-- The machine of a session that is given a line, without the blanks at its ends, if it waits for
one. -/
def supply (s : Session) (m : Machine Buffer) (line : List Char) : Machine Buffer :=
  if s.awaiting then { m with terminal := m.terminal.feed (String.ofList (Text.trim line)) } else m

/-- A session that takes one step for each line and is given the line if it waits for one: the
session when the program has ended or there is no line left, or the fault of a step. -/
def attend : Session → Machine Buffer → List (List Char) → Except Fault Session × Machine Buffer
  | s, m, [] => (.ok s, m)
  | s, m, line :: lines =>
    match s.step (s.supply m line) with
    | (.error fault, _, m) => (.error fault, m)
    | (.ok true, s, m) => s.attend m lines
    | (.ok false, s, m) => (.ok s, m)

variable {s s' : Session} {m m' a n : Machine Buffer} {line : List Char} {lines : List (List Char)}
  {fault : Fault}

theorem supply_output (s : Session) (m : Machine Buffer) (line : List Char) :
    (s.supply m line).terminal.output = m.terminal.output := by
  unfold supply
  split <;> rfl

theorem supply_alike (h : Machine.Alike m a) (s : Session) (line : List Char) :
    Machine.Alike (s.supply m line) (s.supply a line) := by
  unfold supply
  split
  · exact ⟨h.core, h.dispatch⟩
  · exact h

theorem supply_queue (h : a.terminal.queue = m.terminal.queue) (s : Session) (line : List Char) :
    (s.supply a line).terminal.queue = (s.supply m line).terminal.queue := by
  unfold supply
  split
  · simp [Buffer.feed, h]
  · exact h

/-- A session at two machines that are alike and have the same lines takes the same step. -/
theorem step_abreast (h : Machine.Alike m a) (hqueue : a.terminal.queue = m.terminal.queue)
    (s : Session) :
    (s.step a).1 = (s.step m).1 ∧ (s.step a).2.1 = (s.step m).2.1 ∧
      Machine.Abreast m a (s.step m).2.2 (s.step a).2.2 := by
  obtain ⟨hresult, habreast⟩ := Machine.step_abreast h hqueue
  unfold step
  split
  · rcases hm : m.step with ⟨fault | _ | words, m'⟩ <;> rcases ha : a.step with ⟨result, a'⟩ <;>
      rw [hm, ha] at hresult habreast <;> obtain rfl : result = _ := hresult
    · cases fault with
      | _ => exact ⟨rfl, rfl, habreast⟩
    · exact ⟨rfl, rfl, habreast⟩
    · exact ⟨rfl, rfl, habreast⟩
  · exact ⟨rfl, rfl, .of_quiet h hqueue rfl rfl⟩

/-- A step of a session that returns tells whether the program is still running; it is if it waits
for a line. -/
theorem of_step_eq_ok {running : Bool} (hs : s.running = true)
    (h : s.step m = (.ok running, s', n)) :
    s'.running = running ∧ (s'.awaiting = true → running = true) ∧
      (running = false → n.opcode = returnOpcode) := by
  rw [step, if_pos hs] at h
  split at h
  · next hm =>
    cases h
    obtain ⟨hret, rfl⟩ := Machine.step_eq_ended_iff.mp hm
    exact ⟨rfl, id, fun _ => hret⟩
  · cases h
    exact ⟨rfl, fun _ => rfl, Bool.noConfusion⟩
  · cases h
    exact ⟨hs, fun _ => rfl, Bool.noConfusion⟩
  · cases h

/-- A step of a session fails for its opcode or of itself. -/
theorem fault_of_step (h : (s.step m).1 = .error fault) :
    (∃ opcode address, fault = .undefinedOpcode opcode address) ∨ fault.IsOwn := by
  unfold step at h
  split at h
  · rcases hm : m.step with ⟨f | _ | words, m'⟩ <;> rw [hm] at h
    · have hfault := Machine.fault_of_step_buffer (congrArg Prod.fst hm)
      cases f with
      | inputPending prompt => cases h
      | _ =>
        obtain rfl := Except.error.inj h
        exact hfault.imp_right fun hf => hf.resolve_right nofun
    · cases h
    · cases h
  · cases h

/-- An attended session fails for an opcode or of itself, and not for want of a line. -/
theorem fault_of_attend (h : s.attend m lines = (.error fault, m')) :
    (∃ opcode address, fault = .undefinedOpcode opcode address) ∨ fault.IsOwn := by
  induction lines generalizing s m with
  | nil => cases h
  | cons line lines ih =>
    rw [attend] at h
    split at h
    · next hstep =>
      obtain rfl := Except.error.inj (Prod.mk.inj h).1
      exact fault_of_step (congrArg Prod.fst hstep)
    · exact ih h
    · cases h

/-- An attended session that does not fail has come to the end of its program, or it is still
running when its lines are at their end and goes on with any further lines. -/
theorem ended_of_attend (hs : s.running = true) (h : s.attend m lines = (.ok s', m')) :
    (s'.running = true ∧ ∀ rest, s.attend m (lines ++ rest) = s'.attend m' rest) ∨
      s'.running = false ∧ m'.opcode = returnOpcode := by
  induction lines generalizing s m with
  | nil =>
    cases h
    exact .inl ⟨hs, fun _ => rfl⟩
  | cons line lines ih =>
    rw [attend] at h
    split at h
    · cases h
    · next hstep =>
      refine (ih (of_step_eq_ok hs hstep).1 h).imp_left fun hgoes => ⟨hgoes.1, fun rest => ?_⟩
      rw [List.cons_append, attend, hstep]
      exact hgoes.2 rest
    · next hstep =>
      cases h
      obtain ⟨hrunning, -, hret⟩ := of_step_eq_ok hs hstep
      exact .inr ⟨hrunning, hret rfl⟩

end Session

namespace Session

variable {s s' : Session} {m m' n : Machine Buffer} {lines : List (List Char)}

/-- A step of a session only adds to the texts that were put out. -/
theorem prefix_output_step (s : Session) (m : Machine Buffer) :
    m.terminal.output.toList <+: (s.step m).2.2.terminal.output.toList := by
  obtain ⟨texts, houtput, -⟩ := (step_abreast (.refl m) rfl s).2.2.output
  exact ⟨texts, houtput.symm⟩

theorem prefix_output_attend (s : Session) (m : Machine Buffer) (lines : List (List Char)) :
    m.terminal.output.toList <+: (s.attend m lines).2.terminal.output.toList := by
  induction lines generalizing s m with
  | nil => exact List.prefix_rfl
  | cons line lines ih =>
    have hfirst := s.prefix_output_step (s.supply m line)
    rw [supply_output] at hfirst
    rw [attend]
    generalize s.step (s.supply m line) = o at hfirst ⊢
    rcases o with ⟨_ | _ | _, s', n⟩
    · exact hfirst
    · exact hfirst
    · exact hfirst.trans (ih s' n)

end Session

namespace Command

/-! ## Sittings -/

@[simp] theorem encoding_print (c : Console) (line : String) :
    (print c line).encoding = c.encoding :=
  rfl

@[simp] theorem encoding_printCore (c : Console) (core : Core) (w : Workspace) :
    (printCore c core w).encoding = c.encoding := by
  simp [printCore]

@[simp] theorem encoding_printed (c : Console) (texts : List (List CodePoint)) :
    (printed c texts).encoding = c.encoding := by
  induction texts generalizing c with
  | nil => rfl
  | cons text texts ih => exact ih (c.writeLine text)

namespace Sitting

variable {w : Workspace} {s : Sitting} {m m' : Machine Buffer} {lines : List (List Char)}
  {result : Except Fault Session}

/-- A line is taken as in the session that is attended, if the console can write all texts. -/
theorem takeLine_of_step {line : List Char} {answer : Except Fault Bool} {session : Session}
    {n : Machine Buffer} (hrunning : s.session.running = true)
    (hempty : s.machine.terminal.output = #[]) (halike : Machine.Alike s.machine m)
    (hqueue : m.terminal.queue = s.machine.terminal.queue)
    (hm : s.session.step (s.session.supply m line) = (answer, session, n))
    (htakes : answer.isOk = true → ∀ text ∈ n.terminal.output.toList,
      s.console.encoding.Takes text) :
    ∃ s', s.takeLine w line = (answer, s') ∧ Machine.Alike s'.machine n ∧
      ∀ running, answer = .ok running → s'.session = session ∧ session.running = running ∧
        s'.machine.terminal.output = #[] ∧ n.terminal.queue = s'.machine.terminal.queue ∧
          s'.console.encoding = s.console.encoding := by
  have hover : (s.handOver line).machine = s.session.supply s.machine line := by
    unfold handOver Session.supply
    split <;> rfl
  have hstep := Session.step_abreast (Session.supply_alike halike s.session line)
    (Session.supply_queue hqueue s.session line) s.session
  rcases hs : s.session.step (s.session.supply s.machine line) with ⟨answer', session', n'⟩
  rw [hm, hs] at hstep
  obtain ⟨rfl, rfl, hnext, hrest, texts, htexts, htexts'⟩ := hstep
  dsimp only at hs hnext hrest htexts htexts'
  rw [Session.supply_output] at htexts htexts'
  rw [hempty] at htexts
  rw [← hover] at hs
  cases answer with
  | error fault =>
    obtain ⟨records, htake⟩ := takeLine_of_fault (w := w) hs
    exact ⟨_, htake, hnext, fun running h => by cases h⟩
  | ok running =>
    obtain ⟨hgoing, hawaiting, -⟩ := Session.of_step_eq_ok hrunning hs
    have hwritten : ∀ text ∈ texts, s.announced.encoding.Takes text := fun text htext =>
      htakes rfl text (htexts' ▸ List.mem_append_right _ htext)
    have hprint : printOutput s.announced n'.terminal.output.toList =
        (.ok (), printed s.announced texts) := by
      rw [htexts, Array.toList_empty, List.nil_append]
      exact printOutput_of_takes hwritten
    obtain ⟨records, htake⟩ := takeLine_of_printed (w := w) hs hprint
    have hencoding : s.announced.encoding = s.console.encoding := encoding_print ..
    -- whatever is shown behind the texts, the sitting goes on alike
    have hshown (c : Console) (hc : c.encoding = s.console.encoding) :
        ∃ s', ((.ok running, ⟨session, n'.cleared, c, records⟩) : Except Fault Bool × Sitting) =
            (.ok running, s') ∧ Machine.Alike s'.machine n ∧
          ∀ running', (.ok running : Except Fault Bool) = .ok running' →
            s'.session = session ∧ session.running = running' ∧
              s'.machine.terminal.output = #[] ∧ n.terminal.queue = s'.machine.terminal.queue ∧
                s'.console.encoding = s.console.encoding := by
      refine ⟨_, rfl, n'.alike_cleared.symm.trans hnext, ?_⟩
      rintro _ ⟨⟩
      exact ⟨rfl, hgoing, rfl, hrest, hc⟩
    rw [htake]
    by_cases ha : session.awaiting = true
    · obtain rfl := hawaiting ha
      rw [if_pos ha]
      exact hshown _ (by simp [hencoding])
    · rw [if_neg ha]
      cases running with
      | false => exact hshown _ (by simp [hencoding])
      | true => exact hshown _ (by simp [hencoding])

/-- A sitting ends as the attended session does, with the same session, if its console can write
all texts. -/
theorem takeLines_of_attend (hrunning : s.session.running = true)
    (hempty : s.machine.terminal.output = #[]) (halike : Machine.Alike s.machine m)
    (hqueue : m.terminal.queue = s.machine.terminal.queue)
    (h : s.session.attend m lines = (result, m'))
    (htakes : ∀ text ∈ m'.terminal.output.toList, s.console.encoding.Takes text) :
    ∃ s', s.takeLines w lines = (result.map fun _ => (), s') ∧ Machine.Alike s'.machine m' ∧
      ∀ session, result = .ok session → s'.session = session := by
  -- Induction on the lines: each line is taken alike, and all its texts are written.
  induction lines generalizing s m with
  | nil =>
    cases h
    exact ⟨s, rfl, halike, fun session => Except.ok.inj⟩
  | cons line lines ih =>
    rw [Session.attend] at h
    rw [takeLines]
    rcases hm : s.session.step (s.session.supply m line) with ⟨answer, session, n⟩
    rw [hm] at h
    -- what is put out by now stays
    have hlast : answer.isOk = true → n.terminal.output.toList <+: m'.terminal.output.toList := by
      intro hok
      rcases answer with _ | _ | _
      · cases hok
      · cases h
        exact List.prefix_rfl
      · have h : session.attend n lines = (result, m') := h
        have hlater := session.prefix_output_attend n lines
        rwa [h] at hlater
    obtain ⟨s', htake, hnext, hrest⟩ := takeLine_of_step (w := w) hrunning hempty halike hqueue hm
      fun hok text htext => htakes text ((hlast hok).subset htext)
    rw [htake]
    cases answer with
    | error fault =>
      cases h
      exact ⟨s', rfl, hnext, fun session hsession => by cases hsession⟩
    | ok running =>
      obtain ⟨rfl, hgoing, hempty', hqueue', hencoding⟩ := hrest running rfl
      cases running with
      | false =>
        cases h
        exact ⟨s', rfl, hnext, fun session => Except.ok.inj⟩
      | true => exact ih hgoing hempty' hnext hqueue' h (hencoding ▸ htakes)

end Sitting

end Command

end WordMachine
