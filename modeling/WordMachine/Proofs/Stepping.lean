import WordMachine.Machine.Session
import WordMachine.Proofs.Runs
import WordMachine.Proofs.Sequence

/-!
# Stepping and running

A session that is stepped, with its lines of input fed whenever they come, does what a run does
that has all lines from the beginning. The run is ahead of the session only by the lines that have
not been fed yet. A step that waits for a line changes nothing, and every other step is the one
that the run takes.

## Main definitions

* `Session.Event`, `Session.play`: the events of a session, and a session with them
* `Machine.Ahead`: one machine is another with more lines of input
* `Machine.SameState`: two machines show the same

## Main results

* `Machine.Ahead.step`: a step does not see the lines that are not due
* `Session.ahead_of_play`: a run stays ahead of a session that goes on
* `Session.execute_of_play`: a session ends as the run does
-/

namespace WordMachine

/-! ## Sessions with input -/

/-- The machine with one more line of input. -/
def Machine.feed (m : Machine Buffer) (line : String) : Machine Buffer :=
  { m with terminal := m.terminal.feed line }

/-- The machine with given lines of input. -/
def Machine.withQueue (m : Machine Buffer) (lines : List String) : Machine Buffer :=
  { m with terminal := { m.terminal with queue := lines } }

namespace Session

/-- What happens in a session. -/
inductive Event where
  /-- The user takes a step. -/
  | step
  /-- A line of input arrives. -/
  | feed (line : String)
deriving DecidableEq, Repr

/-- The lines that arrive in the course of some events. -/
def fedLines : List Event → List String
  | [] => []
  | .step :: events => fedLines events
  | .feed line :: events => line :: fedLines events

/-- A session with its machine after some events, up to the step that ends the program or fails;
what the last step said, and that the program is running if there was none. -/
def play : List Event → Session → Machine Buffer → Except Fault Bool × Session × Machine Buffer
  | [], s, m => (.ok true, s, m)
  | .feed line :: events, s, m => play events s (m.feed line)
  | .step :: events, s, m =>
    match s.step m with
    | (.ok true, s, m) => play events s m
    | outcome => outcome

end Session

/-! ## Machines with more input -/

namespace Machine

/-- A machine is like another, with more lines behind its lines of input. Only the traces may
differ. -/
structure Ahead (rest : List String) (m a : Machine Buffer) : Prop where
  /-- Memory and registers are the same. -/
  core : a.toCore = m.toCore
  /-- The lines of input are continued. -/
  queue : a.terminal.queue = m.terminal.queue ++ rest
  /-- The output is the same. -/
  output : a.terminal.output = m.terminal.output
  /-- The prompts are the same. -/
  prompts : a.terminal.prompts = m.terminal.prompts
  /-- The operations are the same. -/
  dispatch : a.dispatch = m.dispatch

namespace Ahead

variable {rest : List String} {m a : Machine Buffer}

theorem noteTrace_left (h : Ahead rest m a) : Ahead rest m.noteTrace a := by
  constructor <;> simp [h.core, h.queue, h.output, h.prompts, h.dispatch]

theorem noteTrace (h : Ahead rest m a) : Ahead rest m.noteTrace a.noteTrace := by
  constructor <;> simp [h.core, h.queue, h.output, h.prompts, h.dispatch]

theorem feed {line : String} (h : Ahead (line :: rest) m a) : Ahead rest (m.feed line) a where
  core := h.core
  queue := by
    rw [h.queue, Machine.feed, Buffer.feed, List.append_assoc, List.singleton_append]
  output := h.output
  prompts := h.prompts
  dispatch := h.dispatch

theorem act (h : Ahead rest m a) (x : Action) :
    (a.act x).1 = (m.act x).1 ∧ Ahead rest (m.act x).2 (a.act x).2 ∧
      ∀ prompt, (m.act x).1 ≠ .error (.inputPending prompt) := by
  unfold Machine.act
  rw [h.core]
  cases hx : x.run m.toCore with
  | ok result =>
    exact ⟨rfl, ⟨rfl, h.queue, h.output, h.prompts, h.dispatch⟩, by simp⟩
  | error fault =>
    refine ⟨rfl, h, ?_⟩
    -- an action takes no input, so it never waits for any
    intro prompt hp
    obtain rfl := Except.error.inj hp
    rcases Action.fault_of_run hx with ⟨_, hf⟩ | ⟨_, hf⟩ <;> cases hf

theorem outputCall (h : Ahead rest m a) :
    a.output.1 = m.output.1 ∧ Ahead rest m.output.2 a.output.2 ∧
      ∀ prompt, m.output.1 ≠ .error (.inputPending prompt) := by
  have htext : a.outputText = m.outputText := by
    simp only [outputText, lengthAddress, dataAddress, h.core]
  refine ⟨rfl, ⟨h.core, h.queue, ?_, h.prompts, h.dispatch⟩, nofun⟩
  show a.terminal.output.push a.outputText = m.terminal.output.push m.outputText
  rw [h.output, htext]

theorem inputCall (h : Ahead rest m a) :
    (m.input = (.error (.inputPending inputPrompt), m) ∧ m.terminal.queue = []) ∨
      (a.input.1 = m.input.1 ∧ Ahead rest m.input.2 a.input.2 ∧
        ∀ prompt, m.input.1 ≠ .error (.inputPending prompt)) := by
  cases hq : m.terminal.queue with
  | nil =>
    -- the machine has no line
    have hnone : Terminal.request inputPrompt m.terminal = none :=
      Buffer.request_eq_none_iff.mpr hq
    refine .inl ⟨?_, rfl⟩
    rw [Machine.input, hnone]
    rfl
  | cons line queue =>
    -- both machines take the same line
    have hm : Terminal.request inputPrompt m.terminal =
        some (line, { m.terminal with queue, prompts := m.terminal.prompts.push inputPrompt }) := by
      show m.terminal.request inputPrompt = _
      rw [Buffer.request, hq]
    have ha : Terminal.request inputPrompt a.terminal =
        some (line, { a.terminal with
          queue := queue ++ rest, prompts := a.terminal.prompts.push inputPrompt }) := by
      show a.terminal.request inputPrompt = _
      rw [Buffer.request, h.queue, hq]
      rfl
    have hprompts := congrArg (·.push inputPrompt) h.prompts
    right
    rw [Machine.input, Machine.input, hm, ha]
    simp only [dataAddress, lengthAddress, h.core]
    -- the line is stored in the same words, or up to the same fault
    split
    · exact ⟨rfl, ⟨rfl, rfl, h.output, hprompts, h.dispatch⟩, nofun⟩
    · exact ⟨rfl, ⟨rfl, rfl, h.output, hprompts, h.dispatch⟩, nofun⟩

/-- What an operation does is the same for a machine with more input, unless a line is due and
there is none. -/
theorem perform (h : Ahead rest m a) (operation : Operation) :
    (m.perform operation = (.error (.inputPending inputPrompt), m) ∧ m.terminal.queue = []) ∨
      ((a.perform operation).1 = (m.perform operation).1 ∧
        Ahead rest (m.perform operation).2 (a.perform operation).2 ∧
        ∀ prompt, (m.perform operation).1 ≠ .error (.inputPending prompt)) := by
  cases operation with
  | action x => exact .inr (h.act x)
  | supervisor =>
    simp only [Machine.perform, supervisorCall, h.core]
    split
    · exact h.inputCall
    · split
      · exact .inr h.outputCall
      · exact .inr ⟨rfl, h, nofun⟩

theorem advance (h : Ahead rest m a) (address : Int) (words : Nat) :
    Ahead rest (m.advance address words) (a.advance address words) := by
  refine ⟨?_, h.queue, h.output, h.prompts, h.dispatch⟩
  simp only [Machine.advance, h.core]

/-- A step does not see the lines that are not due: it is the same for a machine with more input,
or it waits for a line that the machine does not have, and has changed nothing. -/
theorem step (h : Ahead rest m a) :
    (m.step = (.error (.inputPending inputPrompt), m.noteTrace) ∧ m.terminal.queue = []) ∨
      (a.step.1 = m.step.1 ∧ Ahead rest m.step.2 a.step.2 ∧
        ∀ prompt, m.step.1 ≠ .error (.inputPending prompt)) := by
  unfold Machine.step
  simp only [h.core, h.dispatch]
  split
  · -- the program ends
    exact .inr ⟨rfl, h, nofun⟩
  · split
    · -- the word is no instruction
      exact .inr ⟨rfl, h, nofun⟩
    · next operation _ =>
      rcases h.noteTrace.perform operation with ⟨hm, hq⟩ | ⟨heq, hahead, hne⟩
      · -- a line is due and there is none
        rw [noteTrace_terminal] at hq
        rw [hm]
        exact .inl ⟨rfl, hq⟩
      · -- the operation is the same, so both machines go on or fail
        right
        generalize m.noteTrace.perform operation = x at heq hahead hne
        generalize a.noteTrace.perform operation = y at heq hahead
        obtain ⟨rx, m'⟩ := x
        obtain ⟨ry, a'⟩ := y
        obtain rfl : ry = rx := heq
        cases ry with
        | ok words => exact ⟨rfl, hahead.advance _ words, nofun⟩
        | error fault =>
          refine ⟨rfl, hahead, ?_⟩
          intro prompt hp
          exact hne prompt (congrArg Except.error (Except.error.inj hp))

end Ahead

/-- Two machines show the same memory, registers, output and prompts. -/
structure SameState (m a : Machine Buffer) : Prop where
  /-- Memory and registers are the same. -/
  core : a.toCore = m.toCore
  /-- The output is the same. -/
  output : a.terminal.output = m.terminal.output
  /-- The prompts are the same. -/
  prompts : a.terminal.prompts = m.terminal.prompts

theorem Ahead.sameState {rest : List String} {m a : Machine Buffer} (h : Ahead rest m a) :
    SameState m a :=
  ⟨h.core, h.output, h.prompts⟩

theorem Ahead.refl (m : Machine Buffer) : Ahead [] m m :=
  ⟨rfl, (List.append_nil _).symm, rfl, rfl, rfl⟩

end Machine

/-! ## Steps of a session -/

namespace Session

variable {s s' : Session} {m m' a : Machine Buffer} {rest : List String}

/-- The steps of a session that is running. -/
inductive Stepped (s : Session) (m : Machine Buffer) :
    Except Fault Bool × Session × Machine Buffer → Prop
  /-- The program has ended. -/
  | ended {m' : Machine Buffer} (h : m.step = (.ok .ended, m')) :
      Stepped s m (.ok false, { running := false }, m')
  /-- An instruction was executed. -/
  | went {words : Nat} {m' : Machine Buffer} (h : m.step = (.ok (.went words), m')) :
      Stepped s m (.ok true, { running := true }, m')
  /-- A line of input is due. -/
  | suspended {prompt : String} {m' : Machine Buffer}
      (h : m.step = (.error (.inputPending prompt), m')) :
      Stepped s m (.ok true, { s with awaiting := true, prompt }, m')
  /-- The step failed. -/
  | failed {fault : Fault} {m' : Machine Buffer} (h : m.step = (.error fault, m'))
      (hne : ∀ prompt, fault ≠ .inputPending prompt) : Stepped s m (.error fault, s, m')

theorem stepped_of_running (hs : s.running = true) (m : Machine Buffer) :
    s.Stepped m (s.step m) := by
  unfold step
  rw [if_pos hs]
  split
  · next h => exact .ended h
  · next h => exact .went h
  · next h => exact .suspended h
  · next hne h => exact .failed h hne

/-- A step that suspends the session changes nothing, and there was no line of input. -/
theorem unchanged_of_suspended (h : s.step m = (.ok true, s', m')) (hs : s'.awaiting = true) :
    m'.toCore = m.toCore ∧ m'.terminal = m.terminal ∧ m.terminal.queue = [] := by
  have hrunning : s.running = true := by
    cases hn : s.running with
    | true => rfl
    | false =>
      rw [step, if_neg (by simp [hn])] at h
      cases h
  have hstep := stepped_of_running hrunning m
  rw [h] at hstep
  cases hstep with
  | went hm => cases hs
  | suspended hm =>
    -- the machine with no more input is the machine itself
    rcases (Machine.Ahead.refl m).step with ⟨heq, hq⟩ | ⟨-, -, hne⟩
    · obtain rfl : _ = m' := congrArg Prod.snd (heq.symm.trans hm)
      exact ⟨m.noteTrace_toCore, m.noteTrace_terminal, hq⟩
    · exact absurd (congrArg Prod.fst hm) (hne _)

/-- The last step of a session ends a run as it ends the session. -/
theorem verdict_of_step (hs : s.running = true) (h : Machine.Ahead rest m a)
    {r : Except Fault Bool} (hstep : s.step m = (r, s', m')) (hr : r ≠ .ok true) (executed : Nat) :
    ∃ result b, a.verdict? executed = some (result, b) ∧ r = result.map (fun _ => false) ∧
      Machine.SameState m' b := by
  have hcases := stepped_of_running hs m
  rw [hstep] at hcases
  rcases h.step with ⟨heq, -⟩ | ⟨hfst, hahead, -⟩
  · -- a step that waits for a line does not end the session
    cases hcases with
    | ended hm => cases heq.symm.trans hm
    | went hm => exact absurd rfl hr
    | suspended hm => exact absurd rfl hr
    | failed hm hne => cases heq.symm.trans hm; exact absurd rfl (hne _)
  · -- the run takes the same step, and the program ends or the step fails
    generalize ha : a.step = after at hfst hahead
    obtain ⟨ra, b⟩ := after
    cases hcases with
    | ended hm =>
      rw [hm] at hfst hahead
      obtain rfl : ra = _ := hfst
      exact ⟨.ok executed, b, by rw [Machine.verdict?, ha], rfl, hahead.sameState⟩
    | went hm => exact absurd rfl hr
    | suspended hm => exact absurd rfl hr
    | @failed fault _ hm hne =>
      rw [hm] at hfst hahead
      obtain rfl : ra = _ := hfst
      exact ⟨.error fault, b, by rw [Machine.verdict?, ha], rfl, hahead.sameState⟩

/-! ## Runs and sessions -/

theorem fedLines_append (es fs : List Event) :
    fedLines (es ++ fs) = fedLines es ++ fedLines fs := by
  induction es with
  | nil => rfl
  | cons e es ih =>
    cases e with
    | step => exact ih
    | feed line => exact congrArg (line :: ·) ih

theorem fedLines_of_append_step {es fs : List Event} (h : es ++ [.step] <+: fs) :
    fedLines es <+: fedLines fs := by
  obtain ⟨suffix, rfl⟩ := h
  rw [fedLines_append, fedLines_append, List.append_assoc]
  exact List.prefix_append _ _

/-- The last step of a session that has ended. -/
theorem play_split {es : List Event} {r : Except Fault Bool} (h : play es s m = (r, s', m'))
    (hr : r ≠ .ok true) :
    ∃ before s₁ m₁, before ++ [.step] <+: es ∧ play before s m = (.ok true, s₁, m₁) ∧
      s₁.step m₁ = (r, s', m') := by
  -- Induction on the events, up to the step that does not go on.
  induction es generalizing s m with
  | nil =>
    cases h
    exact absurd rfl hr
  | cons e es ih =>
    cases e with
    | feed line =>
      obtain ⟨before, s₁, m₁, hpre, hplay, hstep⟩ := ih h
      exact ⟨.feed line :: before, s₁, m₁, List.cons_prefix_cons.mpr ⟨rfl, hpre⟩, hplay, hstep⟩
    | step =>
      rw [play] at h
      split at h
      · next s₂ m₂ h₂ =>
        -- the session goes on, and its last step comes later
        obtain ⟨before, s₁, m₁, hpre, hplay, hstep⟩ := ih h
        refine ⟨.step :: before, s₁, m₁, List.cons_prefix_cons.mpr ⟨rfl, hpre⟩, ?_, hstep⟩
        rw [play, h₂]
        exact hplay
      · -- this is the last step
        exact ⟨[], s, m, List.cons_prefix_cons.mpr ⟨rfl, List.nil_prefix⟩, rfl, h⟩

/-- A run stays ahead of a session that goes on. -/
theorem ahead_of_play {es : List Event} (h : play es s m = (.ok true, s', m'))
    (hs : s.running = true) (hfed : fedLines es <+: rest) (ha : Machine.Ahead rest m a) :
    s'.running = true ∧ ∃ n b rest', a.after n = some b ∧ Machine.Ahead rest' m' b := by
  -- Induction on the events: the run starts ahead by the lines that are still to come.
  induction es generalizing s m a rest with
  | nil =>
    cases h
    exact ⟨hs, 0, a, rest, rfl, ha⟩
  | cons e es ih =>
    cases e with
    | feed line =>
      -- the line is the next one that the run has already
      obtain ⟨suffix, rfl⟩ := hfed
      exact ih h hs (List.prefix_append _ _) ha.feed
    | step =>
      rw [play] at h
      have hcases := stepped_of_running hs m
      split at h
      · next s₂ m₂ h₂ =>
        rw [h₂] at hcases
        cases hcases with
        | @went words _ hm =>
          -- the run takes the same step
          rcases ha.step with ⟨heq, -⟩ | ⟨hfst, hahead, -⟩
          · cases heq.symm.trans hm
          · rw [hm] at hfst hahead
            obtain ⟨hrunning, n, b, rest', hn, hb⟩ := ih h rfl hfed hahead
            have hstep : a.step = (.ok (.went words), a.step.2) := Prod.ext hfst rfl
            exact ⟨hrunning, n + 1, b, rest', (Machine.after_succ hstep n).trans hn, hb⟩
        | suspended hm =>
          -- the run waits for the session, which has changed nothing
          rcases ha.step with ⟨heq, -⟩ | ⟨-, -, hne⟩
          · obtain rfl : _ = m₂ := congrArg Prod.snd (heq.symm.trans hm)
            exact ih h hs hfed ha.noteTrace_left
          · exact absurd (congrArg Prod.fst hm) (hne _)
      · next hne => exact absurd h (hne s' m')

/-- **Running and stepping.** Let a run have all lines of input from the beginning, and let a
session be given the same lines, in any pieces and at any time between its steps. As long as the
session goes on it is where the run has been. When a step ends the program or fails, the last
instruction of the run ends it in the same way, from the same state and in the same state. A step
that suspends the session changes nothing and has found no line of input. -/
theorem execute_of_play (m : Machine Buffer) (hqueue : m.terminal.queue = []) (begin : Int)
    {lines : List String} {es : List Event} (hfed : fedLines es <+: lines) :
    (∀ s m', play es {} (m.startAt begin) = (.ok true, s, m') →
      ∃ n b, ((m.withQueue lines).startAt begin).after n = some b ∧ Machine.SameState m' b) ∧
    (∀ r s m', play es {} (m.startAt begin) = (r, s, m') → r ≠ .ok true →
      ∃ n result b,
        (∀ fuel, (m.withQueue lines).execute begin none fuel =
          if fuel ≤ n then none else some (result, b)) ∧
        r = result.map (fun _ => false) ∧ Machine.SameState m' b ∧
        ∃ before s₁ m₁ b₁, before ++ [.step] <+: es ∧
          play before {} (m.startAt begin) = (.ok true, s₁, m₁) ∧ s₁.step m₁ = (r, s, m') ∧
          ((m.withQueue lines).startAt begin).after n = some b₁ ∧ Machine.SameState m₁ b₁) ∧
    ∀ (s₁ s₂ : Session) (m₁ m₂ : Machine Buffer), s₁.step m₁ = (.ok true, s₂, m₂) →
      s₂.awaiting = true →
      m₂.toCore = m₁.toCore ∧ m₂.terminal = m₁.terminal ∧ m₁.terminal.queue = [] := by
  have hahead : Machine.Ahead lines (m.startAt begin) ((m.withQueue lines).startAt begin) :=
    ⟨rfl, by simp [Machine.startAt, Machine.withQueue, hqueue], rfl, rfl, rfl⟩
  refine ⟨?_, ?_, ?_⟩
  · intro s m' h
    obtain ⟨-, n, b, rest, hn, hb⟩ := ahead_of_play h rfl hfed hahead
    exact ⟨n, b, hn, hb.sameState⟩
  · intro r s m' h hr
    obtain ⟨before, s₁, m₁, hpre, hplay, hstep⟩ := play_split h hr
    have hbefore : fedLines before <+: lines := (fedLines_of_append_step hpre).trans hfed
    obtain ⟨hrunning, n, b₁, rest, hn, hb⟩ := ahead_of_play hplay rfl hbefore hahead
    obtain ⟨result, b, hverdict, hresult, hsame⟩ := verdict_of_step hrunning hb hstep hr (0 + n)
    exact ⟨n, result, b, Machine.run_of_after hn hverdict, hresult, hsame, before, s₁, m₁, b₁,
      hpre, hplay, hstep, hn, hb.sameState⟩
  · intro s₁ s₂ m₁ m₂ hstep hawaiting
    exact unchanged_of_suspended hstep hawaiting

/-- A program that takes a line of input and ends. -/
def reader : Machine Buffer where
  memory := ((∅ : Memory).load [0xF001, 10, 9, 0x8100] 0).2
  terminal := {}

theorem execute_of_play_reader :
    ∃ s m', play [.step, .feed "ab", .step, .step] {} (reader.startAt 0) = (.ok false, s, m') ∧
      ∃ n result b, (∀ fuel, (reader.withQueue ["ab", "c"]).execute 0 none fuel =
          if fuel ≤ n then none else some (result, b)) ∧
        .ok false = result.map (fun _ => false) ∧ Machine.SameState m' b := by
  have hr : (play [.step, .feed "ab", .step, .step] {} (reader.startAt 0)).1.toOption =
      some false := by decide +kernel
  rcases h : play [.step, .feed "ab", .step, .step] {} (reader.startAt 0) with ⟨fault | _, s, m'⟩ <;>
    rw [h] at hr <;> cases hr
  have hfed : fedLines [.step, .feed "ab", .step, .step] <+: ["ab", "c"] := by decide
  obtain ⟨n, result, b, hrun, hresult, hsame, -⟩ :=
    (execute_of_play reader rfl 0 hfed).2.1 _ s m' h nofun
  exact ⟨s, m', rfl, n, result, b, hrun, hresult, hsame⟩

end Session

end WordMachine
