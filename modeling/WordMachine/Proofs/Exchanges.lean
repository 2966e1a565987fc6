import WordMachine.Proofs.Runs
import WordMachine.Proofs.Sequence

/-!
# A machine and its terminal

A step asks its terminal for at most one thing: for a line of input, or to take a text. What it asks
for is settled by memory and registers alone, and so is what the step does, up to the answer. So two
machines with different terminals stay alike as long as their terminals answer alike.

## Main definitions

* `Exchange`: what an instruction asks of the terminal
* `Machine.exchange?`: what the next step asks of its terminal
* `answer`: what a terminal answers
* `Machine.Alike`: two machines that differ in their terminals and traces only

## Main results

* `Machine.Alike.step`: a step sees of its terminal only the answer
* `Machine.step_of_refusal`: a step that the terminal refuses changes nothing
* `Machine.fault_of_step`: a step fails for its opcode, of itself, or since it is refused
-/

namespace WordMachine

/-- What an instruction asks of the terminal. -/
inductive Exchange where
  /-- A line of input, asked for with a prompt. -/
  | line (prompt : String)
  /-- To take a text. -/
  | text (content : List CodePoint)
deriving DecidableEq

/-- What a terminal answers: the line it is asked for, which is empty if it is not asked for one,
and the terminal behind the exchange. -/
def answer {σ : Type} [Terminal σ] (t : σ) : Option Exchange → Except Fault (String × σ)
  | none => .ok ("", t)
  | some (.line prompt) =>
    match Terminal.request prompt t with
    | some reply => .ok reply
    | none => .error (Terminal.shortage prompt t)
  | some (.text content) =>
    match Terminal.emit content t with
    | .ok t => .ok ("", t)
    | .error cause => .error (.unencodable cause)

/-- A fault for which a terminal refuses an exchange. -/
inductive Fault.IsRefusal : Fault → Prop
  /-- No line has arrived. -/
  | inputPending (prompt : String) : IsRefusal (.inputPending prompt)
  /-- What has arrived cannot be decoded. -/
  | undecodable (reason : String) : IsRefusal (.undecodable reason)
  /-- The text cannot be written. -/
  | unencodable (cause : Unencodable) : IsRefusal (.unencodable cause)

theorem Fault.IsCore.not_isRefusal {f : Fault} (h : f.IsCore) : ¬f.IsRefusal := by
  rcases h with ⟨_, rfl⟩ | ⟨_, rfl⟩ <;> nofun

theorem Fault.not_isRefusal_ofLimit (limit address : Int) : ¬(ofLimit limit address).IsRefusal := by
  unfold ofLimit
  split <;> nofun

namespace Machine

variable {σ τ : Type}

/-- What an operation asks of the terminal. -/
def operationExchange? (m : Machine σ) : Operation → Option Exchange
  | .action _ => none
  | .supervisor =>
    if m.second = inputSubtype then some (.line inputPrompt)
    else if m.second = outputSubtype then some (.text m.outputText)
    else none

/-- What the next step asks of the terminal. -/
def exchange? (m : Machine σ) : Option Exchange :=
  if m.opcode = returnOpcode then none
  else (m.dispatch m.opcode).bind m.operationExchange?

theorem exchange?_of_return {m : Machine σ} (hret : m.opcode = returnOpcode) :
    m.exchange? = none :=
  if_pos hret

/-- Two machines are alike if they differ in their terminals and traces only. -/
structure Alike (m : Machine σ) (a : Machine τ) : Prop where
  /-- Memory and registers are the same. -/
  core : a.toCore = m.toCore
  /-- The operations are the same. -/
  dispatch : a.dispatch = m.dispatch

/-- The machine with another terminal. -/
def onto (m : Machine σ) (t : τ) : Machine τ :=
  { toCore := m.toCore, terminal := t, dispatch := m.dispatch, tracing := m.tracing,
    trace := m.trace }

theorem alike_onto (m : Machine σ) (t : τ) : Alike m (m.onto t) :=
  ⟨rfl, rfl⟩

theorem alike_noteTrace (m : Machine σ) : Alike m m.noteTrace :=
  ⟨m.noteTrace_toCore, m.noteTrace_dispatch⟩

namespace Alike

variable {m : Machine σ} {a : Machine τ}

theorem noteTrace (h : Alike m a) : Alike m.noteTrace a.noteTrace :=
  ⟨by simp [h.core], by simp [h.dispatch]⟩

theorem startAt (h : Alike m a) (begin : Int) : Alike (m.startAt begin) (a.startAt begin) := by
  refine ⟨?_, h.dispatch⟩
  simp only [Machine.startAt, h.core]

theorem operationExchange?_eq (h : Alike m a) (operation : Operation) :
    a.operationExchange? operation = m.operationExchange? operation := by
  cases operation with
  | action x => rfl
  | supervisor =>
    simp only [operationExchange?, outputText, lengthAddress, dataAddress, h.core]

theorem exchange?_eq (h : Alike m a) : a.exchange? = m.exchange? := by
  have hoperation : a.operationExchange? = m.operationExchange? :=
    funext h.operationExchange?_eq
  rw [exchange?, exchange?, h.core, h.dispatch, hoperation]

theorem refl (m : Machine σ) : Alike m m :=
  ⟨rfl, rfl⟩

theorem symm (h : Alike m a) : Alike a m :=
  ⟨h.core.symm, h.dispatch.symm⟩

theorem trans {υ : Type} {b : Machine υ} (h : Alike m a) (h' : Alike a b) : Alike m b :=
  ⟨h'.core.trans h.core, h'.dispatch.trans h.dispatch⟩

end Alike

/-- The trace is noted before the operation and does not change what it asks for. -/
@[simp] theorem operationExchange?_noteTrace (m : Machine σ) (operation : Operation) :
    m.noteTrace.operationExchange? operation = m.operationExchange? operation :=
  m.alike_noteTrace.operationExchange?_eq operation

/-- Two machines have gone the same way, neither was refused by its terminal, and their terminals
are as given. -/
structure Matched (s : σ) (u : τ) {α : Type} (x : Except Fault α × Machine σ)
    (y : Except Fault α × Machine τ) : Prop where
  /-- The results are the same. -/
  result : y.1 = x.1
  /-- A fault is none of the terminal. -/
  fault : ∀ f, x.1 = .error f → ¬f.IsRefusal
  /-- The machines are alike. -/
  alike : Alike x.2 y.2
  /-- The terminal of the one. -/
  left : x.2.terminal = s
  /-- The terminal of the other. -/
  right : y.2.terminal = u

theorem Alike.act {m : Machine σ} {a : Machine τ} (h : Alike m a) (x : Action) :
    Matched m.terminal a.terminal (m.act x) (a.act x) := by
  unfold Machine.act
  rw [h.core]
  split
  · exact ⟨rfl, nofun, ⟨rfl, h.dispatch⟩, rfl, rfl⟩
  · next hx =>
    refine ⟨rfl, ?_, h, rfl, rfl⟩
    rintro _ ⟨⟩
    exact (Action.fault_of_run hx).not_isRefusal

/-! ## Answers -/

section Answer

variable [Terminal σ] {t s : σ} {line : String}

theorem answer_none : answer t none = .ok (line, s) ↔ "" = line ∧ t = s := by
  simp [answer]

theorem request_of_answer {prompt : String} (h : answer t (some (.line prompt)) = .ok (line, s)) :
    Terminal.request prompt t = some (line, s) := by
  dsimp only [answer] at h
  split at h
  · next hr => rw [hr, Except.ok.inj h]
  · cases h

theorem emit_of_answer {content : List CodePoint}
    (h : answer t (some (.text content)) = .ok (line, s)) : Terminal.emit content t = .ok s := by
  dsimp only [answer] at h
  split at h
  · next hr =>
    obtain ⟨-, rfl⟩ := Prod.mk.inj (Except.ok.inj h)
    exact hr
  · cases h

end Answer

variable [Terminal σ] [Terminal τ]

namespace Alike

variable {m : Machine σ} {a : Machine τ} {line : String} {s : σ} {u : τ}

theorem input (h : Alike m a) (hm : Terminal.request inputPrompt m.terminal = some (line, s))
    (ha : Terminal.request inputPrompt a.terminal = some (line, u)) :
    Matched s u m.input a.input := by
  rw [Machine.input, Machine.input, hm, ha]
  simp only [dataAddress, lengthAddress, h.core]
  split
  · exact ⟨rfl, nofun, ⟨rfl, h.dispatch⟩, rfl, rfl⟩
  · refine ⟨rfl, ?_, ⟨rfl, h.dispatch⟩, rfl, rfl⟩
    rintro _ ⟨⟩ ⟨⟩

theorem output (h : Alike m a) (hm : Terminal.emit m.outputText m.terminal = .ok s)
    (ha : Terminal.emit m.outputText a.terminal = .ok u) : Matched s u m.output a.output := by
  have htext : a.outputText = m.outputText := by
    simp only [outputText, lengthAddress, dataAddress, h.core]
  rw [Machine.output, Machine.output, htext, hm, ha]
  exact ⟨rfl, nofun, ⟨h.core, h.dispatch⟩, rfl, rfl⟩

/-- An operation sees of its terminal only the answer. -/
theorem perform (h : Alike m a) {operation : Operation}
    (hm : answer m.terminal (m.operationExchange? operation) = .ok (line, s))
    (ha : answer a.terminal (m.operationExchange? operation) = .ok (line, u)) :
    Matched s u (m.perform operation) (a.perform operation) := by
  cases operation with
  | action x =>
    obtain ⟨-, rfl⟩ := answer_none.mp hm
    obtain ⟨-, rfl⟩ := answer_none.mp ha
    exact h.act x
  | supervisor =>
    simp only [operationExchange?] at hm ha
    simp only [Machine.perform, supervisorCall, h.core]
    split
    · next hin =>
      rw [if_pos hin] at hm ha
      exact h.input (request_of_answer hm) (request_of_answer ha)
    · next hin =>
      rw [if_neg hin] at hm ha
      split
      · next hout =>
        rw [if_pos hout] at hm ha
        exact h.output (emit_of_answer hm) (emit_of_answer ha)
      · next hout =>
        rw [if_neg hout] at hm ha
        obtain ⟨-, rfl⟩ := answer_none.mp hm
        obtain ⟨-, rfl⟩ := answer_none.mp ha
        -- a call of any other sub-type does not fail
        refine ⟨rfl, ?_, h, rfl, rfl⟩
        rintro _ ⟨⟩

omit [Terminal σ] [Terminal τ] in
theorem advance (h : Alike m a) (address : Int) (words : Nat) :
    Alike (m.advance address words) (a.advance address words) := by
  refine ⟨?_, h.dispatch⟩
  simp only [Machine.advance, h.core]

/-- A step sees of its terminal only the answer. -/
theorem step (h : Alike m a) (hm : answer m.terminal m.exchange? = .ok (line, s))
    (ha : answer a.terminal m.exchange? = .ok (line, u)) : Matched s u m.step a.step := by
  unfold exchange? at hm ha
  unfold Machine.step
  simp only [h.core, h.dispatch]
  split
  · next hret =>
    rw [if_pos hret] at hm ha
    obtain ⟨-, rfl⟩ := answer_none.mp hm
    obtain ⟨-, rfl⟩ := answer_none.mp ha
    exact ⟨rfl, nofun, h, rfl, rfl⟩
  · next hret =>
    rw [if_neg hret] at hm ha
    cases hd : m.dispatch m.opcode with
    | none =>
      rw [hd] at hm ha
      obtain ⟨-, rfl⟩ := answer_none.mp hm
      obtain ⟨-, rfl⟩ := answer_none.mp ha
      refine ⟨rfl, ?_, h, rfl, rfl⟩
      rintro _ ⟨⟩ ⟨⟩
    | some operation =>
      rw [hd, Option.bind_some] at hm ha
      rw [← noteTrace_terminal, ← operationExchange?_noteTrace] at hm ha
      have hp : Matched s u (m.noteTrace.perform operation) (a.noteTrace.perform operation) :=
        h.noteTrace.perform hm ha
      dsimp only
      generalize m.noteTrace.perform operation = x at hp
      generalize a.noteTrace.perform operation = y at hp
      obtain ⟨rx, m'⟩ := x
      obtain ⟨ry, a'⟩ := y
      obtain ⟨hresult, hfault, halike, hleft, hright⟩ := hp
      obtain rfl : ry = rx := hresult
      cases ry with
      | ok words => exact ⟨rfl, nofun, halike.advance _ words, hleft, hright⟩
      | error fault =>
        refine ⟨rfl, ?_, halike, hleft, hright⟩
        rintro _ ⟨⟩
        exact hfault _ rfl

end Alike

/-! ## Refusals -/

section Refusal

variable {m : Machine σ} {fault : Fault}

omit [Terminal τ]

theorem perform_of_refusal {operation : Operation}
    (h : answer m.terminal (m.operationExchange? operation) = .error fault) :
    m.perform operation = (.error fault, m) := by
  cases operation with
  | action x => cases h
  | supervisor =>
    simp only [operationExchange?] at h
    simp only [perform, supervisorCall]
    split
    · next hin =>
      rw [if_pos hin] at h
      dsimp only [answer] at h
      split at h
      · cases h
      · next hr => rw [input, hr, ← Except.error.inj h]
    · next hin =>
      rw [if_neg hin] at h
      split
      · next hout =>
        rw [if_pos hout] at h
        dsimp only [answer] at h
        split at h
        · cases h
        · next hr => rw [output, hr, ← Except.error.inj h]
      · next hout =>
        rw [if_neg hout] at h
        cases h

/-- A step that the terminal refuses fails and changes nothing. -/
theorem step_of_refusal (h : answer m.terminal m.exchange? = .error fault) :
    m.step = (.error fault, m.noteTrace) := by
  unfold exchange? at h
  unfold step
  split
  · next hret =>
    rw [if_pos hret] at h
    cases h
  · next hret =>
    rw [if_neg hret] at h
    cases hd : m.dispatch m.opcode with
    | none =>
      rw [hd] at h
      cases h
    | some operation =>
      rw [hd, Option.bind_some] at h
      dsimp only
      rw [perform_of_refusal (by rwa [operationExchange?_noteTrace, noteTrace_terminal])]

theorem fault_of_supervisorCall (h : m.supervisorCall.1 = .error fault) :
    fault.IsOwn ∨ answer m.terminal (m.operationExchange? .supervisor) = .error fault := by
  unfold supervisorCall at h
  unfold operationExchange?
  dsimp only at h ⊢
  split
  · next hin =>
    rw [if_pos hin, input] at h
    rw [answer]
    cases hr : Terminal.request inputPrompt m.terminal with
    | none =>
      rw [hr] at h
      exact .inr (Except.error.inj h ▸ rfl)
    | some reply =>
      rw [hr] at h
      dsimp only at h
      split at h
      · cases h
      · next hw => exact .inl (Except.error.inj h ▸ .negativeAddress (Memory.neg_of_writeAll hw))
  · next hin =>
    rw [if_neg hin] at h
    split
    · next hout =>
      rw [if_pos hout, output] at h
      rw [answer]
      cases hr : Terminal.emit m.outputText m.terminal with
      | ok t =>
        rw [hr] at h
        cases h
      | error cause =>
        rw [hr] at h
        exact .inr (Except.error.inj h ▸ rfl)
    · next hout =>
      rw [if_neg hout] at h
      cases h

/-- A step fails since there is no such instruction, or of itself, or since the terminal refuses
what it asks for. -/
theorem fault_of_step (h : m.step.1 = .error fault) :
    (∃ opcode address, fault = .undefinedOpcode opcode address) ∨ fault.IsOwn ∨
      answer m.terminal m.exchange? = .error fault := by
  have hcases := m.stepCases
  generalize m.step = r at h hcases
  cases hcases with
  | ended => cases h
  | went => cases h
  | unknown hret hd => exact .inl ⟨_, _, (Except.error.inj h).symm⟩
  | @failed hret operation hd fault' n hp =>
    obtain rfl := Except.error.inj h
    rw [exchange?, if_neg hret, hd, Option.bind_some]
    cases operation with
    | action a =>
      simp only [perform, act] at hp
      split at hp
      · cases hp
      · next ha =>
        exact .inr (.inl (Except.error.inj (Prod.mk.inj hp).1 ▸ Action.isOwn_of_run ha))
    | supervisor =>
      have hcall := fault_of_supervisorCall (congrArg Prod.fst hp)
      rw [operationExchange?_noteTrace, noteTrace_terminal] at hcall
      exact .inr hcall

end Refusal

omit [Terminal τ] in
/-- A step that puts out a text goes on if the terminal takes it. -/
theorem step_of_text {m : Machine σ} {content : List CodePoint} {t : σ}
    (h : m.exchange? = some (.text content)) (ht : Terminal.emit content m.terminal = .ok t) :
    ∃ words n, m.step = (.ok (.went words), n) := by
  unfold exchange? at h
  unfold step
  split
  · next hret =>
    rw [if_pos hret] at h
    cases h
  · next hret =>
    rw [if_neg hret] at h
    obtain ⟨operation, hd, hexchange⟩ := Option.bind_eq_some_iff.mp h
    rw [hd]
    cases operation with
    | action x => cases hexchange
    | supervisor =>
      rw [← operationExchange?_noteTrace] at hexchange
      simp only [operationExchange?] at hexchange
      simp only [perform, supervisorCall]
      split at hexchange
      · cases hexchange
      · next hin =>
        split at hexchange
        · next hout =>
          obtain rfl := Exchange.text.inj (Option.some.inj hexchange)
          rw [← noteTrace_terminal] at ht
          rw [if_neg hin, if_pos hout, output, ht]
          exact ⟨3, _, rfl⟩
        · cases hexchange

end Machine

end WordMachine
