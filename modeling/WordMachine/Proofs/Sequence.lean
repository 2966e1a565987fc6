import Mathlib
import WordMachine.Machine.Core

/-!
# Outcomes in sequence

A computation that may fail and goes on with another one ends as the first one fails or as the
second one ends. The actions of the core are such sequences, and each of their steps fails in one
way only.

## Main results

* `bind_eq_ok`, `bind_eq_error`: how a sequence ends
* `Action.isOwn_of_run`, `Action.fault_of_run`: an action fails for a register or for an address
  below zero
-/

namespace WordMachine

variable {ε α β : Type} {x : Except ε α} {f : α → Except ε β}

theorem bind_eq_ok {b : β} (h : x >>= f = .ok b) : ∃ a, x = .ok a ∧ f a = .ok b := by
  cases x with
  | error e => cases h
  | ok a => exact ⟨a, rfl, h⟩

theorem bind_eq_error {e : ε} (h : x >>= f = .error e) :
    x = .error e ∨ ∃ a, x = .ok a ∧ f a = .error e := by
  cases x with
  | error e' => exact .inl (congrArg Except.error (Except.error.inj h))
  | ok a => exact .inr ⟨a, rfl, h⟩

/-! ## Faults of actions -/

/-- A fault that an action of the core can have. -/
def Fault.IsCore (f : Fault) : Prop :=
  (∃ index, f = .invalidRegister index) ∨ ∃ address, f = .negativeAddress address

/-- A fault that an action of the core can have, with what is known of it. -/
inductive Fault.IsOwn : Fault → Prop
  /-- A register does not exist. -/
  | invalidRegister (index : Int) : IsOwn (.invalidRegister index)
  /-- An address is below zero. -/
  | negativeAddress {address : Int} (h : address < 0) : IsOwn (.negativeAddress address)

theorem Fault.IsOwn.isCore {f : Fault} (h : f.IsOwn) : f.IsCore := by
  cases h with
  | invalidRegister index => exact .inl ⟨index, rfl⟩
  | negativeAddress => exact .inr ⟨_, rfl⟩

theorem Memory.neg_of_writeAll {m m' : Memory} {writes : List (Int × Int)} {e : NegativeAddress}
    (h : m.writeAll writes = (.error e, m')) : e.address < 0 := by
  induction writes generalizing m with
  | nil => cases h
  | cons x writes ih =>
    rw [writeAll] at h
    split at h
    · exact ih h
    · next hw =>
      obtain ⟨ha, rfl⟩ := write_eq_error_iff.mp hw
      obtain rfl := Except.error.inj (Prod.mk.inj h).1
      exact ha

namespace Core

variable {c : Core} {fault : Fault}

theorem isOwn_of_register {index : Int} (h : c.register index = .error fault) : fault.IsOwn := by
  unfold register at h
  split at h
  · cases h
  · exact Except.error.inj h ▸ .invalidRegister index

theorem isOwn_of_setRegister {index w : Int} (h : c.setRegister index w = .error fault) :
    fault.IsOwn := by
  unfold setRegister at h
  split at h
  · cases h
  · exact Except.error.inj h ▸ .invalidRegister index

theorem isOwn_of_store {address w : Int} (h : c.store address w = .error fault) :
    fault.IsOwn := by
  unfold store at h
  split at h
  · cases h
  · next hw =>
    obtain ⟨ha, rfl⟩ := Memory.write_eq_error_iff.mp hw
    exact Except.error.inj h ▸ .negativeAddress ha

theorem isOwn_of_effectiveAddress (h : c.effectiveAddress = .error fault) : fault.IsOwn := by
  unfold effectiveAddress at h
  split at h
  · cases h
  · rcases bind_eq_error h with h | ⟨x, -, h⟩
    · exact isOwn_of_register h
    · cases h

theorem isOwn_of_secondOperand {form : Form} (h : c.secondOperand form = .error fault) :
    fault.IsOwn := by
  cases form with
  | register => exact isOwn_of_register h
  | address =>
    rcases bind_eq_error h with h | ⟨a, -, h⟩
    · exact isOwn_of_effectiveAddress h
    · cases h

end Core

/-- An action fails only for a register that does not exist or for an address below zero. -/
theorem Action.isOwn_of_run {a : Action} {c : Core} {fault : Fault}
    (h : a.run c = .error fault) : fault.IsOwn := by
  -- Follow each action to the step at which it has failed.
  cases a with
  | nothing => cases h
  | load form =>
    rcases bind_eq_error h with h | ⟨w, -, h⟩
    · exact Core.isOwn_of_secondOperand h
    · rcases bind_eq_error h with h | ⟨d, -, h⟩
      · exact Core.isOwn_of_setRegister h
      · cases h
  | store =>
    rcases bind_eq_error h with h | ⟨address, -, h⟩
    · exact Core.isOwn_of_effectiveAddress h
    · rcases bind_eq_error h with h | ⟨w, -, h⟩
      · exact Core.isOwn_of_register h
      · rcases bind_eq_error h with h | ⟨d, -, h⟩
        · exact Core.isOwn_of_store h
        · cases h
  | loadAddress =>
    rcases bind_eq_error h with h | ⟨address, -, h⟩
    · exact Core.isOwn_of_effectiveAddress h
    · rcases bind_eq_error h with h | ⟨d, -, h⟩
      · exact Core.isOwn_of_setRegister h
      · cases h
  | compute operation form =>
    rcases bind_eq_error h with h | ⟨v, -, h⟩
    · exact Core.isOwn_of_register h
    · rcases bind_eq_error h with h | ⟨w, -, h⟩
      · exact Core.isOwn_of_secondOperand h
      · rcases bind_eq_error h with h | ⟨d, -, h⟩
        · exact Core.isOwn_of_setRegister h
        · cases h
  | compare form =>
    rcases bind_eq_error h with h | ⟨v, -, h⟩
    · exact Core.isOwn_of_register h
    · rcases bind_eq_error h with h | ⟨w, -, h⟩
      · exact Core.isOwn_of_secondOperand h
      · cases h
  | jump condition =>
    by_cases hc : condition.holds c.registers.flags
    · rw [run, if_pos hc] at h
      rcases bind_eq_error h with h | ⟨address, -, h⟩
      · exact Core.isOwn_of_effectiveAddress h
      · cases h
    · rw [run, if_neg hc] at h
      cases h

theorem Action.fault_of_run {a : Action} {c : Core} {fault : Fault}
    (h : a.run c = .error fault) : fault.IsCore :=
  (isOwn_of_run h).isCore

end WordMachine
