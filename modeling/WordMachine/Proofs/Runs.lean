import Mathlib
import WordMachine.Machine.Run

/-!
# Runs step by step

A run executes instructions until one of them ends it, or its limit does. The machine after some
instructions says where the run is, and the limit and the instruction there say whether it ends; so
the outcome of a run is the same for all fuel that suffices.

## Main definitions

* `Machine.StepCases`: what a step can do
* `Machine.after`: the machine after a number of instructions
* `Machine.verdict?`: the outcome of a run that the next instruction ends
* `Machine.conclusion?`: the outcome of a run that its limit or the next instruction ends
* `Machine.course`: the machine at each step of a run

## Main results

* `Machine.run_of_goes`: a run has an outcome from the fuel on that reaches its last instruction
* `Machine.run_of_after`: the same without a limit
-/

namespace WordMachine.Machine

variable {σ : Type}

/-! ## Traces -/

section Trace

variable (m : Machine σ)

@[simp] theorem noteTrace_toCore : m.noteTrace.toCore = m.toCore := by
  unfold noteTrace
  split <;> rfl

@[simp] theorem noteTrace_terminal : m.noteTrace.terminal = m.terminal := by
  unfold noteTrace
  split <;> rfl

@[simp] theorem noteTrace_dispatch : m.noteTrace.dispatch = m.dispatch := by
  unfold noteTrace
  split <;> rfl

@[simp] theorem noteTrace_tracing : m.noteTrace.tracing = m.tracing := by
  unfold noteTrace
  split <;> rfl

end Trace

variable [Terminal σ]

/-! ## Steps -/

/-- What a step can do. -/
inductive StepCases (m : Machine σ) : Except Fault Progress × Machine σ → Prop
  /-- The program ends. -/
  | ended (hret : m.opcode = returnOpcode) : StepCases m (.ok .ended, m)
  /-- The word at the program counter is no instruction. -/
  | unknown (hret : m.opcode ≠ returnOpcode) (hd : m.dispatch m.opcode = none) :
      StepCases m (.error (.undefinedOpcode m.opcode m.registers.counter), m)
  /-- An instruction is executed. -/
  | went (hret : m.opcode ≠ returnOpcode) {operation : Operation}
      (hd : m.dispatch m.opcode = some operation) {words : Nat} {n : Machine σ}
      (hp : m.noteTrace.perform operation = (.ok words, n)) :
      StepCases m (.ok (.went words), n.advance m.registers.counter words)
  /-- An instruction fails. -/
  | failed (hret : m.opcode ≠ returnOpcode) {operation : Operation}
      (hd : m.dispatch m.opcode = some operation) {fault : Fault} {n : Machine σ}
      (hp : m.noteTrace.perform operation = (.error fault, n)) : StepCases m (.error fault, n)

theorem stepCases (m : Machine σ) : m.StepCases m.step := by
  unfold step
  split
  · next hret => exact .ended hret
  · next hret =>
    cases hd : m.dispatch m.opcode with
    | none => exact .unknown hret hd
    | some operation =>
      dsimp only
      rcases hp : m.noteTrace.perform operation with ⟨fault | words, n⟩
      · exact .failed hret hd hp
      · exact .went hret hd hp

/-! ## Runs -/

/-- The machine after a number of instructions, none of which ended the program or failed. -/
def after : Nat → Machine σ → Option (Machine σ)
  | 0, m => some m
  | n + 1, m =>
    match m.step with
    | (.ok (.went _), m) => m.after n
    | _ => none

/-- The outcome of a run that has executed a number of instructions, if the next one ends it. -/
def verdict? (executed : Nat) (m : Machine σ) : Option (Except Fault Nat × Machine σ) :=
  match m.step with
  | (.ok .ended, m) => some (.ok executed, m)
  | (.ok (.went _), _) => none
  | (.error fault, m) => some (.error fault, m)

/-- The outcome is that of the step. -/
theorem verdict?_eq_some_iff {executed : Nat} {m m' : Machine σ} {result : Except Fault Nat} :
    m.verdict? executed = some (result, m') ↔
      m.step.2 = m' ∧ (m.step.1 = .ok .ended ∧ result = .ok executed ∨
        ∃ fault, m.step.1 = .error fault ∧ result = .error fault) := by
  unfold verdict?
  rcases m.step with ⟨fault | _ | words, a⟩ <;> simp [and_comm, eq_comm]

theorem after_succ {m m' : Machine σ} {words : Nat} (h : m.step = (.ok (.went words), m'))
    (n : Nat) : m.after (n + 1) = m'.after n := by
  rw [after, h]

/-- More than one instruction begins with one that neither ends the program nor fails. -/
theorem exists_of_after_succ {n : Nat} {m a : Machine σ} (h : m.after (n + 1) = some a) :
    ∃ words m', m.step = (.ok (.went words), m') ∧ m'.after n = some a := by
  rcases hs : m.step with ⟨_ | _ | words, m'⟩ <;> rw [after, hs] at h
  · cases h
  · cases h
  · exact ⟨words, m', rfl, h⟩

theorem after_add (i j : Nat) (m : Machine σ) :
    m.after (i + j) = (m.after i).bind fun a => a.after j := by
  induction i generalizing m with
  | zero => rw [Nat.zero_add, after, Option.bind_some]
  | succ i ih =>
    rw [Nat.add_right_comm, after, after]
    split
    · exact ih _
    · rfl

/-- The machine stops without a change just where the program ends. -/
theorem step_eq_ended_iff {m m' : Machine σ} :
    m.step = (.ok .ended, m') ↔ m.opcode = returnOpcode ∧ m' = m := by
  unfold step
  constructor
  · intro h
    split at h
    · next hret => exact ⟨hret, (Prod.mk.inj h).2.symm⟩
    · split at h
      · cases h
      · split at h <;> cases h
  · rintro ⟨hret, rfl⟩
    rw [if_pos hret]

/-- The outcome of a run that has executed a number of instructions, if its limit or the next
instruction ends it. -/
def conclusion? (limit : Option Int) (executed : Nat) (m : Machine σ) :
    Option (Except Fault Nat × Machine σ) :=
  if mustStop limit executed m then
    some (.error (.ofLimit (limit.getD 0) m.registers.counter), m)
  else m.verdict? executed

theorem run_of_conclusion? {limit : Option Int} {executed : Nat} {m : Machine σ}
    {o : Except Fault Nat × Machine σ} (h : m.conclusion? limit executed = some o) (fuel : Nat) :
    run limit (fuel + 1) executed m = some o := by
  rw [run]
  unfold conclusion? at h
  split at h
  · next hstop => rwa [if_pos hstop]
  · next hgoes =>
    rw [if_neg hgoes]
    rw [verdict?] at h
    -- the run and the outcome look at the same step
    rcases hs : m.step with ⟨fault | _ | words, m'⟩ <;> rw [hs] at h
    · exact h
    · exact h
    · cases h

/-- The outcome of a run is the one with which it concludes, once the fuel suffices to come there
and no limit ends it before. -/
theorem run_of_goes {limit : Option Int} {n : Nat} {m a : Machine σ} (h : m.after n = some a)
    {executed : Nat} (hgoes : ∀ j < n, ∀ b : Machine σ, mustStop limit (executed + j) b = false)
    {o : Except Fault Nat × Machine σ} (ho : a.conclusion? limit (executed + n) = some o)
    (fuel : Nat) : run limit fuel executed m = if fuel ≤ n then none else some o := by
  -- Induction on the fuel: the run takes one instruction for each unit of it.
  induction fuel generalizing n m executed with
  | zero => rw [if_pos (Nat.zero_le n), run]
  | succ fuel ih =>
    cases n with
    | zero =>
      obtain rfl : m = a := Option.some.inj h
      rw [if_neg (Nat.not_succ_le_zero fuel)]
      exact run_of_conclusion? ho fuel
    | succ n =>
      -- the next instruction goes on, with one unit of fuel and one instruction less
      obtain ⟨words, m', hs, h⟩ := exists_of_after_succ h
      have hfirst : mustStop limit executed m = false := hgoes 0 (Nat.succ_pos n) m
      rw [run, hfirst, if_neg Bool.false_ne_true, hs]
      simp only [Nat.add_le_add_iff_right]
      refine ih h ?_ (by rwa [Nat.add_right_comm])
      intro j hj b
      rw [Nat.add_right_comm]
      exact hgoes (j + 1) (Nat.succ_lt_succ hj) b

/-- The outcome of a run without a limit is that of its last instruction, once the fuel suffices to
reach it. -/
theorem run_of_after {n : Nat} {m a : Machine σ} (h : m.after n = some a) {executed : Nat}
    {o : Except Fault Nat × Machine σ} (ho : a.verdict? (executed + n) = some o) (fuel : Nat) :
    run none fuel executed m = if fuel ≤ n then none else some o :=
  have hconclusion : a.conclusion? none (executed + n) = some o := ho
  run_of_goes h (fun _ _ _ => rfl) hconclusion fuel

/-- The machine at each step of a run that has executed a number of instructions. -/
def course (limit : Option Int) : Nat → Nat → Machine σ → List (Machine σ)
  | 0, _, _ => []
  | fuel + 1, executed, m =>
    if mustStop limit executed m then []
    else
      m ::
        match m.step with
        | (.ok (.went _), m) => course limit fuel (executed + 1) m
        | _ => []

/-- A run with an outcome has stopped at its limit, or its first step is its last one, or it goes on
behind its first step. -/
theorem run_cases {limit : Option Int} {fuel executed : Nat} {m m' : Machine σ}
    {result : Except Fault Nat} (h : run limit (fuel + 1) executed m = some (result, m')) :
    (mustStop limit executed m = true ∧ course limit (fuel + 1) executed m = [] ∧ m' = m ∧
        result = .error (.ofLimit (limit.getD 0) m.registers.counter)) ∨
      (mustStop limit executed m = false ∧ course limit (fuel + 1) executed m = [m] ∧
        m.verdict? executed = some (result, m') ∧ m.step.2 = m') ∨
      ∃ words a, mustStop limit executed m = false ∧ m.step = (.ok (.went words), a) ∧
        course limit (fuel + 1) executed m = m :: course limit fuel (executed + 1) a ∧
        run limit fuel (executed + 1) a = some (result, m') := by
  rw [run] at h
  rw [course]
  split at h
  · next hstop =>
    obtain ⟨rfl, rfl⟩ := Prod.mk.inj (Option.some.inj h)
    exact .inl ⟨hstop, if_pos hstop, rfl, rfl⟩
  · next hgoes =>
    have hgoes := Bool.eq_false_iff.mpr hgoes
    right
    rw [hgoes, if_neg Bool.false_ne_true]
    rcases hs : m.step with ⟨fault | _ | words, a⟩ <;> rw [hs] at h
    · obtain ⟨rfl, rfl⟩ := Prod.mk.inj (Option.some.inj h)
      exact .inl ⟨rfl, rfl, by rw [verdict?, hs], rfl⟩
    · obtain ⟨rfl, rfl⟩ := Prod.mk.inj (Option.some.inj h)
      exact .inl ⟨rfl, rfl, by rw [verdict?, hs], rfl⟩
    · exact .inr ⟨words, a, rfl, rfl, rfl, h⟩

/-- What each step does a run does, if it can be done in turn. -/
theorem related_of_run {R : Machine σ → List (Machine σ) → Machine σ → Prop}
    (refl : ∀ m, R m [] m) (step : ∀ m, R m [m] m.step.2)
    (trans : ∀ {m a b xs ys}, R m xs a → R a ys b → R m (xs ++ ys) b) {limit : Option Int}
    {fuel executed : Nat} {m m' : Machine σ} {result : Except Fault Nat}
    (h : run limit fuel executed m = some (result, m')) :
    R m (course limit fuel executed m) m' := by
  -- Induction on the fuel: the first step, and the run behind it.
  induction fuel generalizing m executed with
  | zero => cases h
  | succ fuel ih =>
    have hfirst := step m
    rcases run_cases h with ⟨-, hcourse, rfl, -⟩ | ⟨-, hcourse, -, rfl⟩ |
      ⟨words, a, -, hs, hcourse, h⟩
    · rw [hcourse]
      exact refl _
    · rw [hcourse]
      exact hfirst
    · rw [hs] at hfirst
      rw [hcourse]
      exact trans hfirst (ih h)

end WordMachine.Machine
