import WordMachine.Proofs.Failures
import WordMachine.Proofs.Numerals
import WordMachine.Proofs.Sequence

/-!
# Runs with a limit

A limit on the number of instructions cuts a run off and changes nothing else. The run executes the
instructions of the run without a limit, as many as the limit allows, and a limit below zero allows
as few as zero does. Where the program ends within the limit, or just behind it, the run ends with
it; where an instruction fails within the limit, the run fails as the one without a limit does. A
run that was cut off can be taken up where it stands.

An instruction that fails is not among those executed, but what it had changed before it failed
stays changed.

## Main definitions

* `Machine.EndsAfter`: a run ends with an outcome after a number of instructions
* `Machine.Truncation`, `Machine.Truncated`: how a run with a limit ends
* `Machine.SameKind`: outcomes that differ in numbers of instructions only

## Main results

* `Machine.exists_truncation`: a run with a limit ends in one of three ways
* `Machine.truncated_of_limit`: a limit only cuts a run off, and two limits in turn are one
-/

namespace WordMachine

/-- The faults of a run whose limit is reached. -/
inductive Fault.IsLimit : Fault → Prop
  /-- The fault tells the limit. -/
  | stepLimit (limit address : Int) : IsLimit (.stepLimit limit address)
  /-- The limit has more digits than can be written. -/
  | unwritable : IsLimit .unwritable

/-- The limit is told if it can be written. -/
theorem Fault.ofLimit_eq (limit address : Int) : ofLimit limit address =
    if limit.natAbs < 10 ^ Numeral.maxDigits then .stepLimit limit address else .unwritable := by
  rw [ofLimit]
  split
  · next h => rw [if_neg (Nat.not_lt.mpr (Numeral.isUnwritable_iff.mp h))]
  · next h =>
    rw [Numeral.isUnwritable_iff, Nat.not_le] at h
    rw [if_pos h]

theorem Fault.isLimit_ofLimit (limit address : Int) : (ofLimit limit address).IsLimit := by
  unfold ofLimit
  split
  · exact .unwritable
  · exact .stepLimit limit address

theorem Fault.IsCore.not_isLimit {f : Fault} (h : f.IsCore) : ¬f.IsLimit := by
  rcases h with ⟨_, rfl⟩ | ⟨_, rfl⟩ <;> nofun

theorem Fault.not_isLimit_shortage (prompt : String) {σ : Type} [Terminal σ] (t : σ) :
    ¬(Terminal.shortage prompt t).IsLimit := by
  rcases Terminal.shortage_eq prompt t with h | ⟨_, h⟩ <;> rw [h] <;> nofun

namespace Machine

variable {σ : Type} [Terminal σ] {m m' a b : Machine σ} {fault : Fault}

/-! ## Faults of steps -/

theorem not_isLimit_of_input (h : m.input = (.error fault, m')) : ¬fault.IsLimit := by
  unfold input at h
  split at h
  · obtain ⟨hf, -⟩ := Prod.mk.inj h
    exact Except.error.inj hf ▸ Fault.not_isLimit_shortage inputPrompt m.terminal
  · split at h
    · cases h
    · obtain ⟨hf, -⟩ := Prod.mk.inj h
      exact Except.error.inj hf ▸ nofun

theorem not_isLimit_of_output (h : m.output = (.error fault, m')) : ¬fault.IsLimit := by
  unfold output at h
  split at h
  · cases h
  · obtain ⟨hf, -⟩ := Prod.mk.inj h
    exact Except.error.inj hf ▸ nofun

theorem not_isLimit_of_perform {operation : Operation}
    (h : m.perform operation = (.error fault, m')) : ¬fault.IsLimit := by
  cases operation with
  | action x =>
    simp only [perform, act] at h
    split at h
    · cases h
    · next hx =>
      obtain ⟨hf, -⟩ := Prod.mk.inj h
      exact (Action.fault_of_run (Except.error.inj hf ▸ hx)).not_isLimit
  | supervisor =>
    simp only [perform, supervisorCall] at h
    split at h
    · exact not_isLimit_of_input h
    · split at h
      · exact not_isLimit_of_output h
      · cases h

/-- A step that fails does not fail for a limit. -/
theorem not_isLimit_of_step (h : m.step = (.error fault, m')) : ¬fault.IsLimit := by
  unfold step at h
  split at h
  · cases h
  · split at h
    · obtain ⟨hf, -⟩ := Prod.mk.inj h
      exact Except.error.inj hf ▸ nofun
    · split at h
      · cases h
      · next hp =>
        obtain ⟨hf, -⟩ := Prod.mk.inj h
        exact not_isLimit_of_perform (Except.error.inj hf ▸ hp)

/-! ## The instructions of a run -/

theorem exists_after_of_le {n k : Nat} (h : m.after n = some a) (hk : k ≤ n) :
    ∃ b, m.after k = some b := by
  obtain ⟨j, rfl⟩ := Nat.exists_eq_add_of_le hk
  rw [after_add] at h
  obtain ⟨b, hb, -⟩ := Option.bind_eq_some_iff.mp h
  exact ⟨b, hb⟩

theorem after_succ_of_after {k : Nat} (h : m.after k = some a) : m.after (k + 1) = a.after 1 := by
  rw [after_add, h, Option.bind_some]

/-- Of a number of instructions a run executes all, or those before one that it cannot get past. -/
theorem exists_after_le (m : Machine σ) (n : Nat) :
    ∃ k ≤ n, ∃ a, m.after k = some a ∧ (k < n → a.after 1 = none) := by
  induction n with
  | zero => exact ⟨0, Nat.le_refl 0, m, rfl, nofun⟩
  | succ n ih =>
    obtain ⟨k, hk, a, ha, hlast⟩ := ih
    rcases Nat.lt_or_eq_of_le hk with hlt | rfl
    · exact ⟨k, by omega, a, ha, fun _ => hlast hlt⟩
    · cases hnext : a.after 1 with
      | none => exact ⟨k, by omega, a, ha, fun _ => hnext⟩
      | some b =>
        refine ⟨k + 1, Nat.le_refl _, b, ?_, fun hlt => absurd hlt (Nat.lt_irrefl _)⟩
        rw [after_succ_of_after ha, hnext]

/-- A run does not get past one place only. -/
theorem eq_of_after {j k n : Nat} (hj : m.after j = some b) (hb : b.after 1 = none) (hjn : j ≤ n)
    (hk : m.after k = some a) (hlast : k < n → a.after 1 = none) (hkn : k ≤ n) :
    j = k ∧ b = a := by
  have hjk : j = k := by
    rcases Nat.lt_trichotomy j k with hlt | heq | hgt
    · obtain ⟨c, hc⟩ := exists_after_of_le hk hlt
      rw [after_succ_of_after hj, hb] at hc
      cases hc
    · exact heq
    · obtain ⟨c, hc⟩ := exists_after_of_le hj hgt
      rw [after_succ_of_after hk, hlast (by omega)] at hc
      cases hc
  subst hjk
  exact ⟨rfl, Option.some.inj (hj.symm.trans hk)⟩

theorem after_one_of_return (h : a.opcode = returnOpcode) : a.after 1 = none := by
  rw [after, step_eq_ended_iff.mpr ⟨h, rfl⟩]

theorem after_one_of_fault (h : a.step = (.error fault, b)) : a.after 1 = none := by
  rw [after, h]

/-! ## The outcome of a run -/

/-- A run from an address ends with an outcome after a number of instructions: it does so with all
fuel that lasts longer. -/
def EndsAfter (m : Machine σ) (begin : Int) (limit : Option Int) (k : Nat)
    (o : Except Fault Nat × Machine σ) : Prop :=
  ∀ fuel, m.execute begin limit fuel = if fuel ≤ k then none else some o

/-- A limit allows a number of instructions. -/
def Allows (limit : Option Int) (k : Nat) : Prop :=
  ∀ most ∈ limit, k ≤ most.toNat

omit [Terminal σ] in
theorem mustStop_eq_false {limit : Option Int} {k : Nat} (h : Allows limit (k + 1))
    (m : Machine σ) : mustStop limit k m = false := by
  cases limit with
  | none => rfl
  | some most =>
    have hlt : ¬most ≤ (k : Int) := by
      have hmost := h most rfl
      omega
    simp [mustStop, hlt]

section Endings

variable {begin : Int} {limit : Option Int} {k : Nat} (h : (m.startAt begin).after k = some a)
include h

theorem endsAfter_of_conclusion? (hk : Allows limit k) {o : Except Fault Nat × Machine σ}
    (ho : a.conclusion? limit k = some o) : m.EndsAfter begin limit k o := by
  intro fuel
  refine run_of_goes h ?_ (by rwa [Nat.zero_add]) fuel
  intro j hj c
  rw [Nat.zero_add]
  exact mustStop_eq_false (fun most hmost => Nat.le_trans hj (hk most hmost)) c

/-- Where the program ends the run does, also if no further instruction is allowed. -/
theorem endsAfter_of_return (hk : Allows limit k) (hret : a.opcode = returnOpcode) :
    m.EndsAfter begin limit k (.ok k, a) := by
  have hgoes : mustStop limit k a = false := by simp [mustStop, hret]
  refine endsAfter_of_conclusion? h hk ?_
  rw [conclusion?, hgoes, if_neg Bool.false_ne_true, verdict?, step_eq_ended_iff.mpr ⟨hret, rfl⟩]

/-- Where an instruction that is allowed fails the run does. -/
theorem endsAfter_of_fault (hk : Allows limit (k + 1)) (hstep : a.step = (.error fault, b)) :
    m.EndsAfter begin limit k (.error fault, b) := by
  refine endsAfter_of_conclusion? h (fun most hmost => Nat.le_of_lt (hk most hmost)) ?_
  rw [conclusion?, mustStop_eq_false hk, if_neg Bool.false_ne_true, verdict?, hstep]

/-- Where no further instruction is allowed the run ends for its limit. -/
theorem endsAfter_of_limit {most : Int} (hk : k = most.toNat) (hret : a.opcode ≠ returnOpcode) :
    m.EndsAfter begin (some most) k (.error (.ofLimit most a.registers.counter), a) := by
  have hstop : mustStop (some most) k a = true := by
    have hle : most ≤ (k : Int) := by omega
    simp [mustStop, hle, hret]
  refine endsAfter_of_conclusion? h ?_ ?_
  · rintro _ ⟨⟩
    omega
  · rw [conclusion?, hstop, if_pos rfl]
    rfl

end Endings

/-! ## Runs that are cut off -/

/-- How a run with a limit ends when it has executed `k` instructions and has come to `a`. -/
inductive Truncation (m : Machine σ) (begin limit : Int) (k : Nat) (a : Machine σ) :
    Except Fault Nat × Machine σ → Prop
  /-- The program ends, and does so without the limit. -/
  | ended (hret : a.opcode = returnOpcode) (free : m.EndsAfter begin none k (.ok k, a)) :
      Truncation m begin limit k a (.ok k, a)
  /-- An instruction fails that the limit allows, and does so without the limit. -/
  | failed {fault : Fault} {b : Machine σ} (hk : k < limit.toNat)
      (hstep : a.step = (.error fault, b)) (free : m.EndsAfter begin none k (.error fault, b)) :
      Truncation m begin limit k a (.error fault, b)
  /-- The limit is reached short of the end of the program. The fault tells the limit and the
  program counter, unless the limit has more digits than can be written. -/
  | stopped {fault : Fault} (hk : k = limit.toNat) (hret : a.opcode ≠ returnOpcode)
      (hfault : fault = if limit.natAbs < 10 ^ Numeral.maxDigits
        then .stepLimit limit a.registers.counter else .unwritable) :
      Truncation m begin limit k a (.error fault, a)

/-- A run with a limit is a part of the run without one: it executes as many instructions as the
limit allows, or all those before the run ends. -/
structure Truncated (m : Machine σ) (begin limit : Int) (k : Nat) (a : Machine σ)
    (o : Except Fault Nat × Machine σ) : Prop where
  /-- It has come where the run without a limit comes with these instructions. -/
  reached : (m.startAt begin).after k = some a
  /-- They are no more than the limit allows. -/
  most : k ≤ limit.toNat
  /-- If they are less, the run without a limit executes no more. -/
  all : k < limit.toNat → (m.startAt begin).after (k + 1) = none
  /-- There the run ends. -/
  outcome : m.EndsAfter begin (some limit) k o
  /-- It ends in one of three ways. -/
  ending : Truncation m begin limit k a o
  /-- It ends regularly if the program ends after no more instructions than allowed. -/
  regular_iff : (∃ count, o.1 = .ok count) ↔ ∃ j b, j ≤ limit.toNat ∧
    (m.startAt begin).after j = some b ∧ b.opcode = returnOpcode
  /-- It fails for another cause than the limit if an instruction that is allowed does. -/
  fault_iff : ∀ fault b, (o = (.error fault, b) ∧ ¬fault.IsLimit) ↔ ∃ j c, j < limit.toNat ∧
    (m.startAt begin).after j = some c ∧ c.step = (.error fault, b)

/-- Two outcomes of runs are alike up to the numbers of instructions: both are regular, or both are
for the limit at the same address, or they are the same. -/
inductive SameKind : Except Fault Nat → Except Fault Nat → Prop
  | regular (count count' : Nat) : SameKind (.ok count) (.ok count')
  | limit (most most' address : Int) :
      SameKind (.error (.ofLimit most address)) (.error (.ofLimit most' address))
  | fault (f : Fault) : SameKind (.error f) (.error f)

/-- How a run with two limits in turn ends: the run with the first one ends for another cause than
its limit, or it is cut off and another run from there goes on. In both cases the run with both
limits together ends in the same state, in the same way. -/
inductive Resumed (m : Machine σ) (begin : Int) (first second : Nat) : Prop
  | done {k : Nat} {result : Except Fault Nat} {b : Machine σ}
      (hfirst : m.EndsAfter begin (some first) k (result, b))
      (hcause : ∀ fault, result = .error fault → ¬fault.IsLimit)
      (hboth : m.EndsAfter begin (some ↑(first + second)) k (result, b))
  | goesOn {a b : Machine σ} {k : Nat} {result result' : Except Fault Nat}
      (hfirst : m.EndsAfter begin (some first) first
        (.error (.ofLimit first a.registers.counter), a))
      (hsecond : a.EndsAfter a.registers.counter (some second) k (result, b))
      (hboth : m.EndsAfter begin (some ↑(first + second)) (first + k) (result', b))
      (hkind : SameKind result result')

/-- A run with a limit ends where the program does, or where an instruction fails that is allowed,
or at the limit. -/
theorem exists_truncation (m : Machine σ) (begin limit : Int) :
    ∃ k a o, (m.startAt begin).after k = some a ∧ k ≤ limit.toNat ∧
      (k < limit.toNat → a.after 1 = none) ∧ m.EndsAfter begin (some limit) k o ∧
      Truncation m begin limit k a o := by
  obtain ⟨k, hk, a, ha, hlast⟩ := (m.startAt begin).exists_after_le limit.toNat
  have hallows : Allows (some limit) k := by
    rintro _ ⟨⟩
    exact hk
  by_cases hret : a.opcode = returnOpcode
  · exact ⟨k, a, _, ha, hk, hlast, endsAfter_of_return ha hallows hret,
      .ended hret (endsAfter_of_return ha nofun hret)⟩
  · rcases Nat.lt_or_eq_of_le hk with hlt | heq
    · -- the next instruction is allowed and does not go on, so it fails
      rcases hstep : a.step with ⟨fault | _ | words, b⟩
      · have hnext : Allows (some limit) (k + 1) := by
          rintro _ ⟨⟩
          exact hlt
        exact ⟨k, a, _, ha, hk, hlast, endsAfter_of_fault ha hnext hstep,
          .failed hlt hstep (endsAfter_of_fault ha nofun hstep)⟩
      · exact absurd (step_eq_ended_iff.mp hstep).1 hret
      · cases (after_succ hstep 0).symm.trans (hlast hlt)
    · exact ⟨k, a, _, ha, hk, hlast, endsAfter_of_limit ha heq hret,
        .stopped heq hret (Fault.ofLimit_eq limit a.registers.counter)⟩

theorem truncated_of_truncation {begin limit : Int} {k : Nat} {o : Except Fault Nat × Machine σ}
    (ha : (m.startAt begin).after k = some a) (hk : k ≤ limit.toNat)
    (hlast : k < limit.toNat → a.after 1 = none) (hends : m.EndsAfter begin (some limit) k o)
    (ho : Truncation m begin limit k a o) : m.Truncated begin limit k a o where
  reached := ha
  most := hk
  all := fun hlt => (after_succ_of_after ha).trans (hlast hlt)
  outcome := hends
  ending := ho
  regular_iff := by
    constructor
    · rintro ⟨count, hcount⟩
      cases ho with
      | ended hret free => exact ⟨k, a, hk, ha, hret⟩
      | failed hlt hstep free => cases hcount
      | stopped heq hret hfault => cases hcount
    · rintro ⟨j, b, hj, hb, hret⟩
      obtain ⟨rfl, rfl⟩ := eq_of_after hb (after_one_of_return hret) hj ha hlast hk
      cases ho with
      | ended => exact ⟨j, rfl⟩
      | failed hlt hstep free => cases hstep.symm.trans (step_eq_ended_iff.mpr ⟨hret, rfl⟩)
      | stopped heq hne => exact absurd hret hne
  fault_iff := by
    intro fault b
    constructor
    · rintro ⟨heq, hlimit⟩
      cases ho with
      | ended hret free => cases heq
      | failed hlt hstep free =>
        obtain ⟨hfault, rfl⟩ := Prod.mk.inj heq
        exact ⟨k, a, hlt, ha, Except.error.inj hfault ▸ hstep⟩
      | stopped heq' hret hfault =>
        obtain ⟨h, -⟩ := Prod.mk.inj heq
        rw [← Fault.ofLimit_eq] at hfault
        obtain rfl := Except.error.inj h
        exact absurd (hfault ▸ Fault.isLimit_ofLimit limit a.registers.counter) hlimit
    · rintro ⟨j, c, hj, hc, hstep⟩
      obtain ⟨rfl, rfl⟩ := eq_of_after hc (after_one_of_fault hstep) (Nat.le_of_lt hj) ha hlast hk
      cases ho with
      | ended hret free => cases hstep.symm.trans (step_eq_ended_iff.mpr ⟨hret, rfl⟩)
      | failed hlt hstep' free =>
        obtain ⟨hfault, rfl⟩ := Prod.mk.inj (hstep'.symm.trans hstep)
        obtain rfl := Except.error.inj hfault
        exact ⟨rfl, not_isLimit_of_step hstep⟩
      | stopped heq hne => omega

/-- A run that is cut off and taken up where it stands ends as a run with both limits together. -/
theorem resumed_of_limits (m : Machine σ) (begin : Int) (first second : Nat) :
    m.Resumed begin first second := by
  obtain ⟨k, a, o, ha, hk, hlast, hends, ho⟩ := m.exists_truncation begin first
  rw [Int.toNat_natCast] at hk hlast
  have hboth {j : Nat} (hj : j ≤ first + second) : Allows (some ↑(first + second)) j := by
    rintro _ ⟨⟩
    exact hj
  cases ho with
  | ended hret free => exact .done hends nofun (endsAfter_of_return ha (hboth (by omega)) hret)
  | failed hlt hstep free =>
    rw [Int.toNat_natCast] at hlt
    refine .done hends ?_ (endsAfter_of_fault ha (hboth (by omega)) hstep)
    rintro _ ⟨⟩
    exact not_isLimit_of_step hstep
  | stopped heq hret hfault =>
    rw [← Fault.ofLimit_eq] at hfault
    rw [Int.toNat_natCast] at heq
    subst hfault heq
    -- the machine stands at its own counter, from which the second run starts
    obtain ⟨k', a', o', ha', hk', -, hends', ho'⟩ :=
      a.exists_truncation a.registers.counter second
    rw [Int.toNat_natCast] at hk'
    have hall : (m.startAt begin).after (k + k') = some a' := by
      rw [after_add, ha]
      exact ha'
    cases ho' with
    | ended hret' free =>
      exact .goesOn hends hends' (endsAfter_of_return hall (hboth (by omega)) hret')
        (.regular _ _)
    | failed hlt hstep free =>
      rw [Int.toNat_natCast] at hlt
      exact .goesOn hends hends' (endsAfter_of_fault hall (hboth (by omega)) hstep) (.fault _)
    | stopped heq' hret' hfault' =>
      rw [← Fault.ofLimit_eq] at hfault'
      subst hfault'
      rw [Int.toNat_natCast] at heq'
      exact .goesOn hends hends' (endsAfter_of_limit hall (by omega) hret') (.limit _ _ _)

/-- **Limits.** A run with a limit is a part of the run without one, up to the limit or to the end
of that run. Cut off at one limit and taken up with another, it ends in the same state as a run
with both limits together, and with an outcome of the same kind. -/
theorem truncated_of_limit (m : Machine σ) (begin limit : Int) :
    (∃ k a o, m.Truncated begin limit k a o) ∧
      ∀ first second : Nat, m.Resumed begin first second := by
  refine ⟨?_, resumed_of_limits m begin⟩
  obtain ⟨k, a, o, ha, hk, hlast, hends, ho⟩ := m.exists_truncation begin limit
  exact ⟨k, a, o, truncated_of_truncation ha hk hlast hends ho⟩

/-- A call that takes a line and cannot store its length is not executed. All the same the run that
it ends has taken the line and stored its characters. -/
theorem changed_by_failing_call :
    ∃ a b, (lengthless.startAt 0).after 0 = some a ∧ (lengthless.startAt 0).after 1 = none ∧
      lengthless.EndsAfter 0 (some 1) 0 (.error (.negativeAddress (-1)), b) ∧
      b.memory ≠ a.memory ∧ b.terminal ≠ a.terminal := by
  have hfault : (lengthless.startAt 0).step.1 = .error (.negativeAddress (-1)) := by
    decide +kernel
  have hstep := Prod.ext (y := (_, (lengthless.startAt 0).step.2)) hfault rfl
  have hallows : Allows (some 1) (0 + 1) := by
    rintro _ ⟨⟩
    decide
  refine ⟨_, _, rfl, after_one_of_fault hstep, endsAfter_of_fault rfl hallows hstep, ?_, ?_⟩
  · decide +kernel
  · decide +kernel

end Machine

end WordMachine
