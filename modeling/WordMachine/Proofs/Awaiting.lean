import WordMachine.Machine.Session
import WordMachine.Proofs.Exchanges
import WordMachine.Proofs.Failures

/-!
# Sessions that wait

A session tells its user whether the program waits for a line of input. A step that returns tells
it right: the program waits just if the step found no line for the instruction that takes one. A
step that fails tells nothing and leaves the session as it was. So a session may go on saying that
the program waits when the line has come and a step with it has failed.

## Main definitions

* `Machine.Suspends`: the next step asks for a line, and there is none
* `Session.IsAbout`: a session says of a step whether it has suspended
* `Session.Attended`: what has been done with a session and its machine
* `Session.Tells`: what the next step of a session tells

## Main results

* `Machine.step_eq_pending_iff`: a step suspends for the lack of a line, and for nothing else
* `Session.Attended.told`: what a session says is what its last step said that did not fail
* `Session.tells_of_attended`: when a session is right about its last step
-/

namespace WordMachine

variable {σ : Type} [Terminal σ]

/-! ## Steps that suspend -/

namespace Machine

/-- The next step suspends: its instruction takes a line of input, and there is none. -/
structure Suspends (m : Machine σ) : Prop where
  /-- The program does not end there. -/
  goes : m.opcode ≠ returnOpcode
  /-- The instruction takes a line. -/
  takesInput : m.TakesInput
  /-- The terminal has none. -/
  missing : Terminal.request inputPrompt m.terminal = none
  /-- One may still arrive. -/
  unobstructed : Terminal.obstacle m.terminal = none

variable {m n : Machine σ} {prompt : String}

theorem of_supervisorCall_eq_pending
    (h : m.supervisorCall = (.error (.inputPending prompt), n)) :
    m.second = inputSubtype ∧ Terminal.request inputPrompt m.terminal = none ∧
      Terminal.obstacle m.terminal = none ∧ prompt = inputPrompt := by
  unfold supervisorCall at h
  split at h
  · next hsecond =>
    unfold input at h
    split at h
    · next hmissing =>
      have hshortage := Except.error.inj (Prod.mk.inj h).1
      exact ⟨hsecond, hmissing, Terminal.shortage_eq_inputPending_iff.mp hshortage⟩
    · -- the line is there, so at most storing it fails
      split at h <;> cases h
  · split at h
    · unfold output at h
      split at h <;> cases h
    · cases h

/-- A step that suspends leaves the machine as it was, but for the trace. -/
theorem Suspends.step_eq (h : m.Suspends) :
    m.step = (.error (.inputPending inputPrompt), m.noteTrace) := by
  refine step_of_refusal ?_
  have hexchange : m.exchange? = some (.line inputPrompt) := by
    rw [exchange?, if_neg h.goes, h.takesInput.1, Option.bind_some, operationExchange?,
      if_pos h.takesInput.2]
  have hshortage : Terminal.shortage inputPrompt m.terminal = .inputPending inputPrompt :=
    Terminal.shortage_eq_inputPending_iff.mpr ⟨h.unobstructed, rfl⟩
  simp only [hexchange, answer, h.missing, hshortage]

/-- A step waits for a line just if it suspends. -/
theorem step_eq_pending_iff :
    m.step.1 = .error (.inputPending prompt) ↔ m.Suspends ∧ prompt = inputPrompt := by
  constructor
  · intro h
    have hcases := m.stepCases
    generalize m.step = r at h hcases
    cases hcases with
    | ended hret => cases h
    | unknown hret hd => cases h
    | went hret hd hp => cases h
    | @failed hret operation hd fault n hp =>
      obtain rfl := Except.error.inj h
      cases operation with
      | action a =>
        -- an action does not ask the terminal for anything
        have hp : m.noteTrace.act a = (.error (.inputPending prompt), n) := hp
        unfold act at hp
        split at hp
        · cases hp
        · next ha =>
          obtain rfl := Except.error.inj (Prod.mk.inj hp).1
          exact absurd (.inputPending prompt) (Action.fault_of_run ha).not_isRefusal
      | supervisor =>
        obtain ⟨hsecond, hmissing, hopen, hprompt⟩ := of_supervisorCall_eq_pending hp
        rw [noteTrace_toCore] at hsecond
        rw [noteTrace_terminal] at hmissing hopen
        exact ⟨⟨hret, ⟨hd, hsecond⟩, hmissing, hopen⟩, hprompt⟩
  · rintro ⟨h, rfl⟩
    rw [h.step_eq]

/-- Whether a step of a session at the machine returns: it succeeds or it waits for a line. -/
def returns (m : Machine σ) : Bool :=
  match m.step.1 with
  | .ok _ | .error (.inputPending _) => true
  | .error _ => false

end Machine

/-! ## Steps of a session -/

namespace Session

variable {s : Session} {m n : Machine σ}

/-- A session says of the step at a machine whether it has suspended, with the prompt for the line
that is missing. -/
structure IsAbout (s : Session) (m : Machine σ) : Prop where
  /-- It says so just if the step has. -/
  awaiting_iff : s.awaiting = true ↔ m.Suspends
  /-- It shows the prompt just if it says so. -/
  prompt_eq : s.prompt = if s.awaiting then inputPrompt else ""

/-- A step of a session that is running, at a machine: it tells whether it has suspended, or it
fails and the session stays as it was. -/
inductive Outcome (s : Session) (m : Machine σ) :
    Except Fault Bool × Session × Machine σ → Prop
  /-- The step has suspended. -/
  | suspended (hm : m.Suspends) :
      Outcome s m (.ok true, { s with awaiting := true, prompt := inputPrompt }, m.noteTrace)
  /-- The step has gone on or found the end of the program. -/
  | returned {running : Bool} {m' : Machine σ} (hm : ¬m.Suspends) (hr : m.returns = true) :
      Outcome s m (.ok running, { running }, m')
  /-- The step has failed. -/
  | failed {fault : Fault} {m' : Machine σ} (hm : ¬m.Suspends) (hr : m.returns = false) :
      Outcome s m (.error fault, s, m')

theorem outcome_of_running (hs : s.running = true) (m : Machine σ) : s.Outcome m (s.step m) := by
  by_cases hm : m.Suspends
  · have hstep : s.step m =
        (.ok true, { s with awaiting := true, prompt := inputPrompt }, m.noteTrace) := by
      rw [step, if_pos hs, hm.step_eq]
    rw [hstep]
    exact .suspended hm
  · have hne : ∀ prompt, m.step.1 ≠ .error (.inputPending prompt) := fun prompt h =>
      hm (Machine.step_eq_pending_iff.mp h).1
    have hr : m.returns = match m.step.1 with
      | .ok _ | .error (.inputPending _) => true
      | .error _ => false := rfl
    rw [step, if_pos hs]
    split
    · next h => exact .returned hm (by rw [hr, h])
    · next h => exact .returned hm (by rw [hr, h])
    · next prompt _ h => exact absurd (congrArg Prod.fst h) (hne prompt)
    · next fault _ hfault h =>
      refine .failed hm ?_
      rw [hr, h]
      cases fault with
      | inputPending prompt => exact absurd rfl (hfault prompt)
      | _ => rfl

/-- A session that has ended does not step its machine. -/
theorem step_of_ended (hs : s.running = false) (m : Machine σ) : s.step m = (.ok false, s, m) := by
  rw [step, hs, if_neg Bool.false_ne_true]

/-! ## Uses of a session -/

/-- What has been done with a session: it was opened on `m`, has taken its steps at the machines
`taken`, in this order, and is now `s` on the machine `n`. Between its steps the machine may take
steps of its own, input may arrive, and memory and registers may be edited. -/
inductive Attended (m : Machine σ) : List (Machine σ) → Session → Machine σ → Prop
  /-- The session was opened. -/
  | opened (begin : Int) : Attended m [] {} (m.startAt begin)
  /-- The session took a step, which is one of the machine unless the session has ended. -/
  | step {taken : List (Machine σ)} {s : Session} {n : Machine σ} (h : Attended m taken s n) :
      Attended m (taken ++ if s.running then [n] else []) (s.step n).2.1 (s.step n).2.2
  /-- The machine took a step by itself. -/
  | stepMachine {taken : List (Machine σ)} {s : Session} {n : Machine σ}
      (h : Attended m taken s n) : Attended m taken s n.step.2
  /-- Input arrived at the terminal. -/
  | receive {taken : List (Machine σ)} {s : Session} {n : Machine σ} (h : Attended m taken s n)
      (arrive : σ → σ) : Attended m taken s { n with terminal := arrive n.terminal }
  /-- Memory and registers were edited. -/
  | edit {taken : List (Machine σ)} {s : Session} {n : Machine σ} (h : Attended m taken s n)
      (core : Core) : Attended m taken s { n with toCore := core }

/-- What a session says after steps at some machines: what the last step said that did not fail. -/
structure Told (taken : List (Machine σ)) (s : Session) : Prop where
  /-- It says that the program waits just if that step has suspended. -/
  awaiting_iff : s.awaiting = true ↔
    ∃ a, (taken.filter Machine.returns).getLast? = some a ∧ a.Suspends
  /-- It shows the prompt just if it says so. -/
  prompt_eq : s.prompt = if s.awaiting then inputPrompt else ""
  /-- A session that has ended does not say so. -/
  ended : s.running = false → s.awaiting = false

theorem told_opened : Told ([] : List (Machine σ)) {} where
  awaiting_iff := by simp
  prompt_eq := rfl
  ended := nofun

/-- The last machine at which a step returned, after one more step. -/
theorem getLast?_filter_snoc {taken : List (Machine σ)} (hr : m.returns = true) :
    ((taken ++ [m]).filter Machine.returns).getLast? = some m := by
  rw [List.filter_append, List.filter_cons_of_pos hr, List.filter_nil, List.getLast?_concat]

/-- One more step of the session. -/
theorem Told.step {taken : List (Machine σ)} (h : Told taken s) (hs : s.running = true) :
    Told (taken ++ [m]) (s.step m).2.1 := by
  have hout := outcome_of_running hs m
  generalize s.step m = r at hout ⊢
  cases hout with
  | suspended hm =>
    have hr : m.returns = true := by rw [Machine.returns, hm.step_eq]
    constructor
    · rw [getLast?_filter_snoc hr]
      exact iff_of_true rfl ⟨m, rfl, hm⟩
    · rfl
    · intro hended
      cases hs.symm.trans hended
  | returned hm hr =>
    constructor
    · rw [getLast?_filter_snoc hr]
      refine iff_of_false Bool.false_ne_true ?_
      rintro ⟨a, ha, hsuspends⟩
      exact hm (Option.some.inj ha ▸ hsuspends)
    · rfl
    · exact fun _ => rfl
  | failed hm hr =>
    -- a step that fails is not among those that returned
    have hfilter : (taken ++ [m]).filter Machine.returns = taken.filter Machine.returns := by
      simp [hr]
    exact ⟨hfilter ▸ h.awaiting_iff, h.prompt_eq, h.ended⟩

theorem Attended.told {taken : List (Machine σ)} (h : Attended m taken s n) : Told taken s := by
  induction h with
  | opened begin => exact told_opened
  | @step taken s n h ih =>
    cases hs : s.running with
    | true => exact ih.step hs
    | false =>
      rw [step_of_ended hs, if_neg Bool.false_ne_true, List.append_nil]
      exact ih
  | stepMachine h ih => exact ih
  | receive h arrive ih => exact ih
  | edit h core ih => exact ih

/-- What the next step of a session at a machine tells. -/
structure Tells (s : Session) (m : Machine σ) : Prop where
  /-- A step that returns says whether it has suspended. -/
  returned : ∀ running, (s.step m).1 = .ok running →
    (s.step m).2.1.IsAbout m ∧ (s.step m).2.1.running = running
  /-- A step that fails has not suspended, and leaves the session as it was. -/
  failed : ∀ fault, (s.step m).1 = .error fault → ¬m.Suspends ∧ (s.step m).2.1 = s
  /-- So the session is wrong about the step just if the step has failed and an earlier step has
  suspended. -/
  stale_iff : ¬(s.step m).2.1.IsAbout m ↔
    s.awaiting = true ∧ ∃ fault, (s.step m).1 = .error fault
  /-- A step that suspends returns, and changes neither memory nor registers nor terminal. -/
  suspended : m.Suspends → (s.step m).1 = .ok true ∧ (s.step m).2.2.toCore = m.toCore ∧
    (s.step m).2.2.terminal = m.terminal

theorem tells_of_running (hs : s.running = true)
    (hprompt : s.prompt = if s.awaiting then inputPrompt else "") : s.Tells m := by
  have hout := outcome_of_running hs m
  generalize hstep : s.step m = r at hout
  cases hout with
  | suspended hm =>
    have habout : IsAbout { s with awaiting := true, prompt := inputPrompt } m :=
      ⟨iff_of_true rfl hm, rfl⟩
    constructor <;> rw [hstep]
    · rintro running hr
      obtain rfl := Except.ok.inj hr
      exact ⟨habout, hs⟩
    · nofun
    · simp [habout]
    · exact fun _ => ⟨rfl, m.noteTrace_toCore, m.noteTrace_terminal⟩
  | @returned running m' hm hr =>
    have habout : IsAbout { running } m := ⟨iff_of_false Bool.false_ne_true hm, rfl⟩
    constructor <;> rw [hstep]
    · rintro running hr
      obtain rfl := Except.ok.inj hr
      exact ⟨habout, rfl⟩
    · nofun
    · simp [habout]
    · exact fun h => absurd h hm
  | failed hm hr =>
    constructor <;> rw [hstep]
    · nofun
    · exact fun _ _ => ⟨hm, rfl⟩
    · -- the session is right if it says that the program does not wait
      have habout : s.IsAbout m ↔ s.awaiting = false := by
        constructor
        · intro h
          exact Bool.eq_false_iff.mpr (mt h.awaiting_iff.mp hm)
        · intro h
          exact ⟨iff_of_false (Bool.eq_false_iff.mp h) hm, hprompt⟩
      simp [habout]
    · exact fun h => absurd h hm

/-- **Waiting.** Whatever is done with a session and its machine, the session says that the program
waits, and shows the prompt, just if the last of its steps that did not fail has suspended. So it is
right about every step that returns; about a step that fails it is wrong just if that last step has
suspended. A session that has ended never says that the program waits, and its steps change nothing
any more. -/
theorem tells_of_attended {taken : List (Machine σ)} (h : Attended m taken s n) :
    s.Told taken ∧ (s.running = true → s.Tells n) ∧
      ((s.step n).1 = .ok false → (s.step n).2.1.running = false) ∧
      (s.running = false → s.awaiting = false ∧ s.prompt = "" ∧
        ∀ a : Machine σ, s.step a = (.ok false, s, a)) := by
  have htold := h.told
  refine ⟨htold, fun hs => tells_of_running hs htold.prompt_eq, ?_, ?_⟩
  · intro hended
    cases hs : s.running with
    | true => exact ((tells_of_running hs htold.prompt_eq).returned false hended).2
    | false => rwa [step_of_ended hs]
  · intro hs
    have hawaiting := htold.ended hs
    have hprompt := htold.prompt_eq
    rw [hawaiting] at hprompt
    exact ⟨hawaiting, hprompt, step_of_ended hs⟩

/-- A program that takes a line of input, whose length has no address; there is no line yet. -/
def unstorable : Machine Buffer where
  memory := ((∅ : Memory).load [0xF001, 10, -1] 0).2
  terminal := {}

/-- A session that waits and is given a line, before the step that cannot store it. -/
theorem tells_unstorable :
    ∃ taken s n, Attended unstorable taken s n ∧ s.running = true ∧ s.awaiting = true ∧
      s.Tells n ∧ ¬(s.step n).2.1.IsAbout n := by
  have h := ((Attended.opened (m := unstorable) 0).step).receive (Buffer.feed · "ab")
  have htells := (tells_of_attended h).2.1 rfl
  exact ⟨_, _, _, h, rfl, rfl, htells, htells.stale_iff.mpr
    ⟨rfl, .negativeAddress (-1), by decide +kernel⟩⟩

/-- The session still says that the program waits, with the prompt, when the line has come and the
step with it has failed. -/
theorem awaiting_of_failed_step :
    ∃ taken s n, Attended unstorable taken s n ∧ s.running = true ∧ ¬n.Suspends ∧
      (s.step n).1 = .error (.negativeAddress (-1)) ∧ (s.step n).2.1.awaiting = true ∧
      (s.step n).2.1.prompt = inputPrompt := by
  have h := ((Attended.opened (m := unstorable) 0).step).receive (Buffer.feed · "ab")
  refine ⟨_, _, _, h, rfl, ?_, ?_, ?_, ?_⟩
  · intro hsuspends
    cases hsuspends.missing
  · decide +kernel
  · decide +kernel
  · decide +kernel

end Session

end WordMachine
