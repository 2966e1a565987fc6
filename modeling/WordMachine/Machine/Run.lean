import WordMachine.Machine.Step

/-!
# Runs

A run executes a program to its end. A limit on the number of steps ends a run before its end; the
fuel of a run only bounds the computation, and a run that it does not suffice for has no outcome.

## Main definitions

* `Machine.run`: the outcome of a run
* `Machine.execute`: the outcome of a run from an address
-/

namespace WordMachine.Machine

variable {σ : Type}

/-- The machine at an address. -/
def startAt (m : Machine σ) (address : Int) : Machine σ :=
  { m with registers := { m.registers with counter := address } }

/-- Whether a run that has executed a number of instructions must stop before the next one: its
limit is reached and the program is not at its end. -/
def mustStop (limit : Option Int) (executed : Nat) (m : Machine σ) : Bool :=
  limit.any (fun most => most ≤ (executed : Int)) && m.opcode != returnOpcode

variable [Terminal σ]

/-- The outcome of a run that has executed a number of instructions: the number of all instructions
executed, or why the run stopped short. -/
def run (limit : Option Int) : Nat → Nat → Machine σ → Option (Except Fault Nat × Machine σ)
  | 0, _, _ => none
  | fuel + 1, executed, m =>
    if mustStop limit executed m then
      some (.error (.ofLimit (limit.getD 0) m.registers.counter), m)
    else
      match m.step with
      | (.ok .ended, m) => some (.ok executed, m)
      | (.ok (.went _), m) => run limit fuel (executed + 1) m
      | (.error fault, m) => some (.error fault, m)

/-- The outcome of a run from an address. -/
def execute (m : Machine σ) (begin : Int) (limit : Option Int) (fuel : Nat) :
    Option (Except Fault Nat × Machine σ) :=
  run limit fuel 0 (m.startAt begin)

end WordMachine.Machine
