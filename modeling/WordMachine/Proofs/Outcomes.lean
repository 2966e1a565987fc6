import WordMachine.Proofs.Endings
import WordMachine.Proofs.LineNumbers
import WordMachine.Proofs.Printing

/-!
# Outcomes of the command

A command line with valid options and files that can be opened comes to one of four ends. The
program is refused, or a run or a sitting raises a fault of the machine; or a word was to be stored
below zero, a number has too many digits, or the input cannot be decoded; or all ends well. The exit
code with the line on standard error tells which, and the other way round.

## Main definitions

* `Command.prepare`: the program of a source text with its entry, or why there is none
* `Command.Fate`: the four ends of a command
* `Outcome.Reports`, `Command.Comes`: the end that an outcome reports, and the one that there was
* `Command.Told`: what the outcome of a command tells

## Main results

* `Workspace.belowZero_of_assemble`: when a word of a program has no address
* `Workspace.overlong_of_assemble`: when a number of a program has too many digits
* `Command.told_of_outcome`: what the outcome of a command tells
-/

namespace WordMachine

/-! ## Words without an address -/

namespace Draft

/-- The first word behind a negative address has no address. -/
theorem addItems_eq_negativeAddress {d e : Draft} {row : Row} {index : Nat} {items : List Item}
    {fault : NegativeAddress} (hneg : d.address < 0)
    (h : d.addItems row index items = (.error (.negativeAddress fault), e)) :
    fault.address = d.address ∧ cellsOf items ≠ [] := by
  cases items with
  | nil => cases h
  | cons item items =>
    cases item with
    | error c => cases h
    | ok cell =>
      rw [addItems, if_pos hneg] at h
      cases h
      exact ⟨rfl, List.cons_ne_nil cell _⟩

end Draft

namespace Workspace

/-- An assembly fails for want of an address only if the base is negative and a row has a word; it
is the base that is reported. -/
theorem belowZero_of_assemble {w w' : Workspace} {fault : NegativeAddress}
    (h : w.assemble = (.error (.negativeAddress fault), w')) :
    w.base < 0 ∧ fault.address = w.base ∧ ∃ r ∈ w.rows, r.cells ≠ [] := by
  rcases hd : Draft.ofRows w.base w.rows with ⟨f | ⟨⟩, d⟩
  · -- the first pass stops in a row
    rw [assemble_of_error hd] at h
    obtain ⟨hf, -⟩ := Prod.mk.inj h
    obtain rfl := Except.error.inj hf
    obtain ⟨before, row, after, d', hrows, hbefore, hrow⟩ := Draft.addRows_eq_error_iff.mp hd
    rw [Nat.zero_add] at hrow
    have hlaid := Draft.laidOut_of_ofRows hbefore
    have hneg : w.base < 0 := by
      by_contra hb
      obtain ⟨c, cells, hc, -, -⟩ := Draft.stopped_of_addRow hlaid (Int.not_lt.mp hb) hrow
      cases hc
    have hnext : d'.address = w.base := by
      have hnone := hlaid.place.resolve_right (Int.not_le.mpr hneg)
      rw [hlaid.address_eq, ← length_programCells, hnone]
      simp
    rw [Draft.addRow, Draft.bindLabel_eq] at hrow
    cases hlabel : d'.labelComplaint? row with
    | some c =>
      rw [hlabel] at hrow
      cases hrow
    | none =>
      rw [hlabel] at hrow
      have haddress : ((d'.bind row).noteStart row).address = w.base := by simpa using hnext
      obtain ⟨hfault, hcells⟩ := Draft.addItems_eq_negativeAddress (haddress ▸ hneg) hrow
      exact ⟨hneg, hfault.trans haddress, row, by simp [hrows], hcells⟩
  · -- the second pass does not write below the base
    exfalso
    by_cases hb : 0 ≤ w.base
    · rw [assemble_of_ok hd] at h
      cases hr : (w.resolveDraft d).1 with
      | ok u =>
        rw [hr] at h
        cases h
      | error f =>
        obtain ⟨a, s, rfl, -⟩ := undefinedLabel_of_resolveDraft hb hd hr
        rw [hr] at h
        cases h
    · have hnone := (Draft.laidOut_of_ofRows hd).place.resolve_right hb
      have hok := isOk_of_ofRows hd (programCells_eq_nil_iff.mp hnone)
      rw [h] at hok
      cases hok

/-- An assembly is refused for a number only if a row has a decimal numeral with too many digits;
the number of the digits is reported. -/
theorem overlong_of_assemble {w w' : Workspace} {d : Diagnostic}
    (h : w.assemble = (.error (.refused d), w')) (hk : d.complaint.kind = .number) :
    ∃ digits, d = { complaint := .overlongNumber digits } ∧ ∃ r ∈ w.rows, r.HasOverlong digits := by
  rcases hd : Draft.ofRows w.base w.rows with ⟨f | ⟨⟩, e⟩
  · -- the first pass stops in a row
    rw [assemble_of_error hd] at h
    obtain rfl := Except.error.inj (Prod.mk.inj h).1
    obtain ⟨before, row, after, d', hrows, -, hrow⟩ := Draft.addRows_eq_error_iff.mp hd
    obtain ⟨c, rfl, hc⟩ := Draft.exists_of_addRow_refused hrow
    rw [Row.complaint_diagnostic] at hk
    obtain ⟨digits, rfl, hoverlong⟩ := hc.overlong hk
    exact ⟨digits, Row.diagnostic_of_number hk _ _, row, by simp [hrows], hoverlong⟩
  · -- the second pass is refused for an undefined label
    exfalso
    rw [assemble_of_ok hd] at h
    rcases hr : w.resolveDraft e with ⟨f | ⟨⟩, m⟩ <;> rw [hr] at h
    · obtain rfl := Except.error.inj (Prod.mk.inj h).1
      obtain ⟨s, a, rfl⟩ := exists_of_resolve_refused hr
      cases hk
    · cases h

end Workspace

namespace Command

/-! ## The program of a source text -/

/-- The program of a source text at a base address, with its entry, or why there is none. -/
def prepare (base : Int) (source : String) : Except Failure (Workspace × Int) :=
  match Workspace.ofSource ∅ base source with
  | .error d => .error (.refused d)
  | .ok w =>
    match w.assemble with
    | (.error f, _) => .error f
    | (.ok _, w) =>
      match w.entryAddress with
      | .error d => .error (.refused d)
      | .ok entry => .ok (w, entry)

/-- A program text is refused for a number only if a row has a decimal numeral with too many
digits. -/
theorem overlong_of_prepare {base : Int} {source : String} {d : Diagnostic}
    (h : prepare base source = .error (.refused d)) (hk : d.complaint.kind = .number) :
    ∃ digits, d = { complaint := .overlongNumber digits } ∧
      ∃ rows, readSource source = .ok rows ∧ ∃ r ∈ rows, r.HasOverlong digits := by
  unfold prepare at h
  split at h
  · next d' hsource =>
    -- a line that cannot be split into fields has too many operands
    obtain rfl := Failure.refused.inj (Except.error.inj h)
    rcases bind_eq_error hsource with hread | ⟨rows, -, hok⟩
    · obtain ⟨count, number, line, rfl⟩ := exists_of_readSource_error hread
      cases hk
    · cases hok
  · next w hsource =>
    obtain ⟨rows, hread, rfl⟩ := Workspace.ofSource_eq_ok hsource
    split at h
    · next f w' hassemble =>
      obtain rfl := Except.error.inj h
      obtain ⟨digits, hd, hrow⟩ := Workspace.overlong_of_assemble hassemble hk
      exact ⟨digits, hd, rows, hread, hrow⟩
    · next w' hassemble =>
      split at h
      · next d' hentry =>
        obtain rfl := Failure.refused.inj (Except.error.inj h)
        unfold Workspace.entryAddress at hentry
        split at hentry
        · split at hentry
          · cases hentry
          · cases hentry
            cases hk
        · cases hentry
      · cases h

theorem belowZero_of_prepare {base : Int} {source : String} {e : NegativeAddress}
    (h : prepare base source = .error (.negativeAddress e)) :
    base < 0 ∧ e.address = base ∧
      ∃ rows, readSource source = .ok rows ∧ ∃ r ∈ rows, r.cells ≠ [] := by
  unfold prepare at h
  split at h
  · cases h
  · next w hsource =>
    obtain ⟨rows, hread, rfl⟩ := Workspace.ofSource_eq_ok hsource
    split at h
    · next f w' hassemble =>
      obtain rfl := Except.error.inj h
      obtain ⟨hneg, haddress, hrow⟩ := Workspace.belowZero_of_assemble hassemble
      exact ⟨hneg, haddress, rows, hread, hrow⟩
    · split at h <;> cases h

/-- There is no program if its rows cannot be assembled. -/
theorem prepare_of_assemble {base : Int} {source : String} {rows : List Row} {f : Failure}
    (hread : readSource source = .ok rows)
    (h : ({ base, rows } : Workspace).assemble.1 = .error f) : prepare base source = .error f := by
  have hsource : Workspace.ofSource ∅ base source = .ok { base, rows } := by
    rw [Workspace.ofSource, hread]
    rfl
  rw [prepare, hsource]
  dsimp only
  generalize ({ base, rows } : Workspace).assemble = answer at h ⊢
  obtain ⟨_ | _, w⟩ := answer <;> cases h
  rfl

/-- A program text is run if there is a program, else the failure is reported. -/
theorem runSource_eq (o : Options) (base : Int) (source : String) (stdin : StandardInput)
    (journal : Journal) (fuel : Nat) :
    ∃ journal', runSource o base source stdin journal fuel =
      match prepare base source with
      | .error f => some { failureReport o.verbose f with journal := journal' }
      | .ok (w, entry) => runAssembled o w entry stdin journal' fuel := by
  unfold runSource prepare
  cases Workspace.ofSource ∅ base source with
  | error d => exact ⟨_, rfl⟩
  | ok w =>
    dsimp only
    rcases w.assemble with ⟨f | map, w'⟩
    · exact ⟨_, rfl⟩
    · dsimp only
      cases w'.entryAddress with
      | error d => exact ⟨_, rfl⟩
      | ok entry => exact ⟨_, rfl⟩

/-- What a command does with a program text. -/
inductive Handled (o : Options) (base : Int) (source : String) (stdin : StandardInput)
    (fuel : Nat) : Outcome → Prop
  /-- There is no program. -/
  | unprepared {f : Failure} {journal : Journal} (h : prepare base source = .error f) :
      Handled o base source stdin fuel { failureReport o.verbose f with journal }
  /-- The program has come to an ending. -/
  | concluded {w : Workspace} {entry : Int} {ending : Ending} {console : Console}
      {journal : Journal} (h : prepare base source = .ok (w, entry))
      (hc : Concluded o w entry stdin fuel ending console) :
      Handled o base source stdin fuel
        { ending.report o.verbose with stdout := console.text, journal }

variable {o : Options} {base : Int} {source : String} {stdin : StandardInput} {fuel : Nat}
  {out : Outcome}

theorem handled_of_runSource {journal : Journal} (hlimit : o.maxSteps ≠ .unspecified)
    (hquiet : ∀ w entry, prepare base source = .ok (w, entry) →
      ∀ text ∈ putOut o w entry stdin fuel, firstSurrogates? text = none)
    (h : runSource o base source stdin journal fuel = some out) :
    Handled o base source stdin fuel out := by
  obtain ⟨journal', hrun⟩ := runSource_eq o base source stdin journal fuel
  rw [hrun] at h
  split at h
  · next hf =>
    cases h
    exact .unprepared hf
  · next w entry hprepared =>
    -- the course of the program settles the outcome, whichever way it is executed
    obtain ⟨⟨ending, console, records⟩, hcourse, rfl⟩ := Option.map_eq_some_iff.mp h
    refine .concluded hprepared ?_
    cases hmode : o.interactive with
    | false =>
      rw [hmode, if_neg Bool.false_ne_true] at hcourse
      exact concluded_of_runProgram hmode hlimit hcourse
    | true =>
      rw [hmode, if_pos rfl] at hcourse
      exact concluded_of_stepProgram hmode (hquiet w entry hprepared) (Option.some.inj hcourse)

/-! ## Fates -/

/-- The ends of a command. -/
inductive Fate where
  /-- The program is refused. -/
  | refused
  /-- The program has raised a fault of the machine. -/
  | stopped
  /-- A word was to be stored below zero, a number has too many digits, or the input cannot be
  decoded. -/
  | broken
  /-- All has ended well. -/
  | finished
deriving DecidableEq, Repr

/-- The exit code of an end. -/
def Fate.exitCode : Fate → Nat
  | refused | stopped => 1
  | broken => 2
  | finished => 0

end Command

open Command

/-- An outcome reports an end, by its exit code and the line on standard error. -/
def Outcome.Reports (out : Outcome) : Fate → Prop
  | .refused =>
    out.exitCode = 1 ∧ out.stdout = "" ∧
      ∃ message, out.stderr = "Assembler error: " ++ message ++ "\n"
  | .stopped =>
    out.exitCode = 1 ∧ ∃ message counter,
      out.stderr = "Machine error: " ++ message ++ " (PC=" ++ Word.hex counter ++ ")\n"
  | .broken => out.exitCode = 2 ∧ ∃ message, out.stderr = "Internal error: " ++ message ++ "\n"
  | .finished => out.exitCode = 0 ∧ out.stderr = ""

theorem Outcome.Reports.exitCode_eq {out : Outcome} {fate : Fate} (h : out.Reports fate) :
    out.exitCode = fate.exitCode := by
  cases fate <;> exact h.1

/-- An outcome reports one end only. -/
theorem Outcome.Reports.unique {out : Outcome} {fate fate' : Fate} (h : out.Reports fate)
    (h' : out.Reports fate') : fate = fate' := by
  have hcodes : fate.exitCode = fate'.exitCode := h.exitCode_eq.symm.trans h'.exitCode_eq
  -- two ends share an exit code, and differ in the first letter of the line
  have hlines (m m' m'' : String) :
      "Assembler error: " ++ m ++ "\n" ≠ "Machine error: " ++ m' ++ " (PC=" ++ m'' ++ ")\n" := by
    intro heq
    have hletters := congrArg (fun s => s.toList.head?) heq
    simp at hletters
  cases fate <;> cases fate' <;> first | rfl | exact absurd hcodes (by decide) | skip
  case refused.stopped =>
    obtain ⟨-, -, m, hm⟩ := h
    obtain ⟨-, m', counter, hm'⟩ := h'
    exact absurd (hm.symm.trans hm') (hlines m m' _)
  case stopped.refused =>
    obtain ⟨-, m', counter, hm'⟩ := h
    obtain ⟨-, -, m, hm⟩ := h'
    exact absurd (hm.symm.trans hm') (hlines m m' _)

namespace Command

/-- The end that a program text comes to. -/
inductive Comes (o : Options) (base : Int) (source : String) (stdin : StandardInput) (fuel : Nat) :
    Fate → Prop
  /-- The program is refused. -/
  | refused {d : Diagnostic} (h : prepare base source = .error (.refused d))
      (hk : d.complaint.kind ≠ .number) : Comes o base source stdin fuel .refused
  /-- The program raises a fault of the machine. -/
  | stopped {w : Workspace} {entry : Int} {fault : Fault} {core : Core}
      (h : prepare base source = .ok (w, entry))
      (hraises : Raises o w entry stdin fuel fault core) (hfault : IsMachineFault o fault) :
      Comes o base source stdin fuel .stopped
  /-- A number of the program has too many digits. -/
  | overlong {d : Diagnostic} (h : prepare base source = .error (.refused d))
      (hk : d.complaint.kind = .number) : Comes o base source stdin fuel .broken
  /-- A word of the program has no address. -/
  | unplaced {e : NegativeAddress} (h : prepare base source = .error (.negativeAddress e)) :
      Comes o base source stdin fuel .broken
  /-- The program stores a word below zero, or needs more of its input than can be decoded. -/
  | broken {w : Workspace} {entry : Int} {fault : Fault} {core : Core}
      (h : prepare base source = .ok (w, entry))
      (hraises : Raises o w entry stdin fuel fault core) (hfault : IsInternalFault stdin fault) :
      Comes o base source stdin fuel .broken
  /-- The program comes to its end. -/
  | finished {w : Workspace} {entry : Int} (h : prepare base source = .ok (w, entry))
      (hends : Ends o w entry stdin fuel) : Comes o base source stdin fuel .finished

/-- The end that a program comes to that cannot be assembled. -/
def Fate.ofFailure : Failure → Fate
  | .refused d => if d.complaint.kind = .number then .broken else .refused
  | .negativeAddress _ => .broken

theorem comes_of_error {f : Failure} (hf : prepare base source = .error f) :
    Comes o base source stdin fuel (.ofFailure f) := by
  cases f with
  | refused d =>
    rw [Fate.ofFailure]
    split
    · next hk => exact .overlong hf hk
    · next hk => exact .refused hf hk
  | negativeAddress e => exact .unplaced hf

theorem Comes.eq_of_error {f : Failure} {fate : Fate} (h : Comes o base source stdin fuel fate)
    (hf : prepare base source = .error f) : fate = .ofFailure f := by
  cases h with
  | refused h hk =>
    cases hf.symm.trans h
    exact (if_neg hk).symm
  | overlong h hk =>
    cases hf.symm.trans h
    exact (if_pos hk).symm
  | unplaced h =>
    cases hf.symm.trans h
    rfl
  | stopped h | broken h | finished h => cases hf.symm.trans h

/-- A program raises a fault of the machine, or another one, or comes to its end. -/
theorem Comes.of_ok {w : Workspace} {entry : Int} {fate : Fate}
    (h : Comes o base source stdin fuel fate) (hp : prepare base source = .ok (w, entry)) :
    (fate = .finished ∧ Ends o w entry stdin fuel) ∨
      ∃ fault core, Raises o w entry stdin fuel fault core ∧
        (fate = .stopped ∧ IsMachineFault o fault ∨
          fate = .broken ∧ IsInternalFault stdin fault) := by
  cases h with
  | refused h | overlong h | unplaced h => cases hp.symm.trans h
  | stopped h hraises hfault =>
    cases hp.symm.trans h
    exact .inr ⟨_, _, hraises, .inl ⟨rfl, hfault⟩⟩
  | broken h hraises hfault =>
    cases hp.symm.trans h
    exact .inr ⟨_, _, hraises, .inr ⟨rfl, hfault⟩⟩
  | finished h hends =>
    cases hp.symm.trans h
    exact .inl ⟨rfl, hends⟩

/-- A program text comes to one end only. -/
theorem Comes.unique {fate fate' : Fate} (h : Comes o base source stdin fuel fate)
    (h' : Comes o base source stdin fuel fate') : fate = fate' := by
  cases hp : prepare base source with
  | error f => rw [h.eq_of_error hp, h'.eq_of_error hp]
  | ok program =>
    rcases h.of_ok hp with ⟨rfl, hends⟩ | ⟨fault, core, hraises, hfate⟩
    · rcases h'.of_ok hp with ⟨rfl, -⟩ | ⟨fault', core', hraises', -⟩
      · rfl
      · exact absurd hraises' hends.not_raises
    · rcases h'.of_ok hp with ⟨-, hends⟩ | ⟨fault', core', hraises', hfate'⟩
      · exact absurd hraises hends.not_raises
      · -- both have raised the same fault, which is of one sort only
        obtain ⟨rfl, -⟩ := hraises.unique hraises'
        rcases hfate with ⟨rfl, hfault⟩ | ⟨rfl, hfault⟩
        · rcases hfate' with ⟨rfl, -⟩ | ⟨-, hfault'⟩
          · rfl
          · exact absurd hfault hfault'.not_isMachineFault
        · rcases hfate' with ⟨-, hfault'⟩ | ⟨rfl, -⟩
          · exact absurd hfault' hfault.not_isMachineFault
          · rfl

/-- The end that there was is reported. -/
theorem Handled.exists_fate (h : Handled o base source stdin fuel out)
    (hlimit : o.HasWritableLimit)
    (hquiet : ∀ w entry, prepare base source = .ok (w, entry) →
      ∀ text ∈ putOut o w entry stdin fuel, firstSurrogates? text = none) :
    ∃ fate, out.Reports fate ∧ Comes o base source stdin fuel fate := by
  cases h with
  | @unprepared f journal h =>
    refine ⟨.ofFailure f, ?_, comes_of_error h⟩
    cases f with
    | refused d =>
      rw [Fate.ofFailure, failureReport]
      split
      · exact ⟨rfl, d.message, rfl⟩
      · exact ⟨rfl, rfl, d.message, rfl⟩
    | negativeAddress e => exact ⟨rfl, e.message, rfl⟩
  | @concluded w entry ending console journal h hc =>
    rcases hc.ending with ⟨rfl, hends⟩ | ⟨fault, core, rfl, hraises⟩
    · exact ⟨.finished, ⟨rfl, rfl⟩, .finished h hends⟩
    · rcases hraises.cases hlimit (hquiet w entry h) with hfault | hfault
      · refine ⟨.stopped, ?_, .stopped h hraises hfault⟩
        rw [report_of_isMachineFault hfault]
        exact ⟨rfl, _, _, rfl⟩
      · refine ⟨.broken, ?_, .broken h hraises hfault⟩
        rw [report_of_isInternalFault hfault]
        exact ⟨rfl, _, rfl⟩

/-! ## What an outcome tells -/

/-- What the outcome of a command tells. -/
structure Told (o : Options) (base : Int) (source : String) (stdin : StandardInput) (fuel : Nat)
    (out : Outcome) : Prop where
  /-- The command ends with a report of its own. -/
  caught : out.uncaught = none
  /-- Some end is reported. -/
  reported : ∃ fate, out.Reports fate
  /-- The end that is reported is the one that there was. -/
  reports_iff : ∀ fate, out.Reports fate ↔ Comes o base source stdin fuel fate
  /-- A traceback follows an internal error, if details are asked for. -/
  traceback_iff : out.traceback = true ↔ out.exitCode = 2 ∧ o.verbose = true
  /-- The reason why a program is refused is reported. -/
  refusal : ∀ d, prepare base source = .error (.refused d) → d.complaint.kind ≠ .number →
    out.stderr = "Assembler error: " ++ d.message ++ "\n"
  /-- A number has too many digits only if a row has a decimal numeral with so many of them. -/
  overlong : ∀ d, prepare base source = .error (.refused d) → d.complaint.kind = .number →
    ∃ digits, out.stderr = "Internal error: " ++ Numeral.unreadableText digits ++ "\n" ∧
      ∃ rows, readSource source = .ok rows ∧ ∃ r ∈ rows, r.HasOverlong digits
  /-- A word has no address only if the base is negative and a row has a word. -/
  belowZero : ∀ e, prepare base source = .error (.negativeAddress e) →
    base < 0 ∧ e.address = base ∧
      ∃ rows, readSource source = .ok rows ∧ ∃ r ∈ rows, r.cells ≠ []
  /-- A fault of the machine is reported with the address of the instruction. -/
  fault : ∀ w entry fault core, prepare base source = .ok (w, entry) →
    Raises o w entry stdin fuel fault core → IsMachineFault o fault →
      out.stderr =
        "Machine error: " ++ fault.message ++ " (PC=" ++ Word.hex core.registers.counter ++ ")\n"
  /-- Any other fault is reported as an internal error: words are stored below zero only at negative
  addresses, and the input is in want only of what cannot be decoded. -/
  internal : ∀ w entry fault core, prepare base source = .ok (w, entry) →
    Raises o w entry stdin fuel fault core → ¬IsMachineFault o fault →
      IsInternalFault stdin fault ∧ out.stderr = "Internal error: " ++ fault.message ++ "\n"
  /-- No program fails for want of a line. -/
  supplied : ∀ w entry prompt core, prepare base source = .ok (w, entry) →
    ¬Raises o w entry stdin fuel (.inputPending prompt) core
  /-- A limit makes no difference to a sitting. -/
  unlimited : o.interactive = true → ∀ limit surroundings fuel,
    runOptions { o with maxSteps := limit } surroundings fuel = runOptions o surroundings fuel
  /-- What was shown at some stage stays on standard output. -/
  kept : ∀ w entry c, prepare base source = .ok (w, entry) → Shows o w entry stdin fuel c →
    ∃ rest, out.stdout = c.text ++ rest

theorem runOptions_maxSteps (hmode : o.interactive = true) (limit : StepLimit)
    (surroundings : Surroundings) (fuel : Nat) :
    runOptions { o with maxSteps := limit } surroundings fuel =
      runOptions o surroundings fuel := by
  -- no logger and no listing depends on the limit, and a sitting does not look at it
  simp only [runOptions, openJournal, setUpAll, logFile, baseAddress?, runSource, runAssembled,
    openConsole, hmode, if_true]

theorem traceback_failureReport (verbose : Bool) (f : Failure) :
    (failureReport verbose f).traceback = true ↔
      (failureReport verbose f).exitCode = 2 ∧ verbose = true := by
  cases f with
  | refused d =>
    rw [failureReport]
    split <;> simp [Report.internal]
  | negativeAddress e => simp [failureReport, Report.internal]

theorem traceback_report (verbose : Bool) (ending : Ending) :
    (ending.report verbose).traceback = true ↔
      (ending.report verbose).exitCode = 2 ∧ verbose = true := by
  cases ending with
  | finished => simp [Ending.report]
  | stopped fault address => cases fault <;> simp [Ending.report, Report.internal]
  | uncounted => simp [Ending.report, Report.internal]

/-- Why there is no program is reported. -/
theorem Handled.report_of_error {f : Failure} (h : Handled o base source stdin fuel out)
    (hf : prepare base source = .error f) : out.toReport = failureReport o.verbose f := by
  cases h with
  | unprepared h =>
    cases hf.symm.trans h
    rfl
  | concluded h => cases hf.symm.trans h

/-- The ending of a program is reported. -/
theorem Handled.exists_concluded {w : Workspace} {entry : Int}
    (h : Handled o base source stdin fuel out) (hp : prepare base source = .ok (w, entry)) :
    ∃ ending console, out.toReport = ending.report o.verbose ∧ out.stdout = console.text ∧
      Concluded o w entry stdin fuel ending console := by
  cases h with
  | unprepared h => cases hp.symm.trans h
  | concluded h hc =>
    cases hp.symm.trans h
    exact ⟨_, _, rfl, rfl, hc⟩

/-- The fault of a program is reported. -/
theorem Handled.report_of_raises {w : Workspace} {entry : Int} {fault : Fault} {core : Core}
    (h : Handled o base source stdin fuel out) (hp : prepare base source = .ok (w, entry))
    (hraises : Raises o w entry stdin fuel fault core) :
    out.toReport = (Ending.stopped fault core.registers.counter).report o.verbose := by
  obtain ⟨ending, console, hreport, -, hc⟩ := h.exists_concluded hp
  rcases hc.ending with ⟨-, hends⟩ | ⟨fault', core', rfl, hraises'⟩
  · exact absurd hraises hends.not_raises
  · obtain ⟨rfl, rfl⟩ := hraises.unique hraises'
    exact hreport

theorem Handled.told (h : Handled o base source stdin fuel out) (hlimit : o.HasWritableLimit)
    (hquiet : ∀ w entry, prepare base source = .ok (w, entry) →
      ∀ text ∈ putOut o w entry stdin fuel, firstSurrogates? text = none) :
    Told o base source stdin fuel out := by
  obtain ⟨fate, hreports, hcomes⟩ := h.exists_fate hlimit hquiet
  constructor
  case caught => cases h <;> rfl
  case reported => exact ⟨fate, hreports⟩
  case reports_iff =>
    intro fate'
    constructor
    · intro h'
      exact hreports.unique h' ▸ hcomes
    · intro h'
      exact hcomes.unique h' ▸ hreports
  case traceback_iff =>
    cases h with
    | unprepared => exact traceback_failureReport ..
    | concluded => exact traceback_report ..
  case refusal =>
    intro d hd hk
    rw [h.report_of_error hd, failureReport, if_neg hk]
  case overlong =>
    intro d hd hk
    obtain ⟨digits, rfl, hrows⟩ := overlong_of_prepare hd hk
    refine ⟨digits, ?_, hrows⟩
    rw [h.report_of_error hd, failureReport, if_pos hk]
    rfl
  case belowZero => exact fun e => belowZero_of_prepare
  case fault =>
    intro w entry fault core hp hraises hfault
    rw [h.report_of_raises hp hraises, report_of_isMachineFault hfault]
  case internal =>
    intro w entry fault core hp hraises hfault
    have hinternal := (hraises.cases hlimit (hquiet w entry hp)).resolve_left hfault
    refine ⟨hinternal, ?_⟩
    rw [h.report_of_raises hp hraises, report_of_isInternalFault hinternal]
    rfl
  case supplied =>
    intro w entry prompt core hp hraises
    rcases hraises.cases hlimit (hquiet w entry hp) with
      (⟨_, _, hfault⟩ | ⟨_, hfault⟩ | ⟨-, _, _, hfault⟩) | hfault <;> cases hfault
  case unlimited => exact runOptions_maxSteps
  case kept =>
    intro w entry c hp hc'
    obtain ⟨ending, console, -, hstdout, hc⟩ := h.exists_concluded hp
    rw [hstdout]
    exact (hc.kept c hc').text

/-- A command line that runs a program text: its options are valid, its source file can be read, and
the log files that it asks for can be opened. -/
structure Runs (arguments : List String) (surroundings : Surroundings) (o : Options) (base : Int)
    (source : String) : Prop where
  /-- The command line is well formed. -/
  parse : Request.parse? arguments = some (.run o)
  /-- The base address is an integer. -/
  base : baseAddress? o = some base
  /-- A limit is a number. -/
  limit : o.maxSteps ≠ .unspecified
  /-- Log files can be opened if they are asked for. -/
  logFiles : o.logFile = true → ∀ name, surroundings.logObstacle name = none
  /-- The source file holds the text. -/
  source : ∃ contents text, surroundings.file o.source = .bytes contents ∧
    String.fromUTF8? contents = some text ∧
      source = String.ofList (Text.unifyLineEnds text.toList)

/-- Loggers are set up if their files can be opened. -/
theorem exists_setUpAll {surroundings : Surroundings}
    (h : o.logFile = true → ∀ name, surroundings.logObstacle name = none) (j : Journal)
    (names : List String) : ∃ j', setUpAll o surroundings j names = (.ok (), j') := by
  have hopens (name reason : String) : logFile o surroundings name ≠ .refused reason := by
    rw [logFile]
    split
    · next hlog => rw [h hlog name]; nofun
    · nofun
  induction names generalizing j with
  | nil => exact ⟨j, rfl⟩
  | cons name names ih =>
    rw [setUpAll]
    generalize hs : j.setup .standard name Level.debug _ (logFile o surroundings name) = answer
    rcases answer with ⟨reason | ⟨⟩, j'⟩
    · exact absurd (Journal.file_of_setup_error hs) (hopens name reason)
    · exact ih j'

/-- A command line that runs a program text has the outcome of the text. -/
theorem outcome_eq_runSource {arguments : List String} {surroundings : Surroundings}
    (hruns : Runs arguments surroundings o base source) (fuel : Nat) :
    ∃ journal, outcome arguments surroundings fuel =
      runSource o base source surroundings.stdin journal fuel := by
  obtain ⟨contents, text, hfile, htext, rfl⟩ := hruns.source
  obtain ⟨journal, hjournal⟩ := exists_setUpAll hruns.logFiles {} ["comet2", "casl2"]
  refine ⟨journal, ?_⟩
  simp only [outcome, hruns.parse, runOptions, openJournal, hjournal, hfile, htext, hruns.base]

/-- **Exit codes.** A command line with valid options and files that can be opened, whose program
puts out no surrogates, comes to the end that its outcome reports, and to none else. -/
theorem told_of_outcome {arguments : List String} {surroundings : Surroundings}
    (hruns : Runs arguments surroundings o base source)
    (hquiet : ∀ w entry, prepare base source = .ok (w, entry) →
      ∀ text ∈ putOut o w entry surroundings.stdin fuel, firstSurrogates? text = none)
    (h : outcome arguments surroundings fuel = some out) :
    Told o base source surroundings.stdin fuel out := by
  obtain ⟨journal, hout⟩ := outcome_eq_runSource hruns fuel
  rw [hout] at h
  exact (handled_of_runSource hruns.limit hquiet h).told
    (Request.hasWritableLimit_of_parse? hruns.parse) hquiet

/-- What a command finds that is to run a program text, without any input. -/
def alone (source : String) : Surroundings where
  file _ := .bytes source.toUTF8

/-- A text without carriage returns runs as it stands. -/
theorem runs_alone {source : String} (h : '\r' ∉ source.toList) :
    Runs ["prog.cas"] (alone source) { source := "prog.cas" } 0 source where
  parse := by decide +kernel
  base := rfl
  limit := nofun
  logFiles := nofun
  source := by
    refine ⟨source.toUTF8, source, rfl, dif_pos source.isValidUTF8, ?_⟩
    rw [Text.unifyLineEnds_eq_self h, String.ofList_toList]

/-- A program that puts out a letter and comes to a word that is no instruction. -/
def strayWord : String := " OUT B,L\n DC #FF00\nB DC 65\nL DC 1\n"

theorem told_strayWord :
    ∃ out, outcome ["prog.cas"] (alone strayWord) 20 = some out ∧
      Told { source := "prog.cas" } 0 strayWord {} 20 out ∧
        out.Reports .stopped ∧ out.stdout = "A\n" := by
  have hsome : (outcome ["prog.cas"] (alone strayWord) 20).any (fun out =>
      out.exitCode = 1 ∧ out.stdout = "A\n" ∧
        out.stderr = "Machine error: " ++ "Undefined opcode #FF at #0003" ++ " (PC=" ++
          Word.hex 3 ++ ")\n") = true := by
    decide +kernel
  simp only [Option.any_eq_true, decide_eq_true_eq] at hsome
  obtain ⟨out, h, hcode, hshown, hline⟩ := hsome
  have hquiet : ∀ w entry, prepare 0 strayWord = .ok (w, entry) →
      ∀ text ∈ putOut { source := "prog.cas" } w entry {} 20, firstSurrogates? text = none := by
    intro w entry hp
    have hall : (match prepare 0 strayWord with
        | .ok (w, entry) => (putOut { source := "prog.cas" } w entry {} 20).all fun text =>
          firstSurrogates? text = none
        | .error _ => true) = true := by
      decide +kernel
    rw [hp] at hall
    simpa using hall
  have htold := told_of_outcome (runs_alone (by decide +kernel)) hquiet h
  exact ⟨out, h, htold, ⟨hcode, _, 3, hline⟩, hshown⟩

/-! ## A number that cannot be read -/

/-- A constant of nines. -/
def nines (count : Nat) : String :=
  String.ofList (List.replicate count '9')

/-- The rows of a program that ends at once, in front of a constant of nines. -/
def endingRows (count : Nat) : List Row :=
  [⟨"", "RET", []⟩, ⟨"", "DC", [nines count]⟩]

theorem eq_of_mem_nines {count : Nat} {c : Char} (h : c ∈ (nines count).toList) : c = '9' := by
  rw [nines, String.toList_ofList] at h
  exact List.eq_of_mem_replicate h

theorem solid_nines {p : Char → Bool} (hp : p '9' = false) (count : Nat) :
    Text.Solid p false (nines count).toList ∧
      Text.quotedAfter false (nines count).toList = false := by
  refine Text.solid_of_plain fun c hc => ?_
  obtain rfl := eq_of_mem_nines hc
  exact ⟨by decide, hp⟩

theorem isLabel_nines {count : Nat} (h : 0 < count) : IsLabel (nines count).toList := by
  obtain ⟨hfield, hclosed⟩ := solid_nines (p := Text.isBlank) (by decide) count
  refine ⟨?_, fun hc => ?_, (solid_nines (by decide) count).1, hfield,
    Text.trimEnd_of_closed hfield hclosed⟩
  · rw [nines, String.toList_ofList, Ne, List.replicate_eq_nil_iff]
    exact Nat.ne_of_gt h
  · cases eq_of_mem_nines hc

theorem normalOperand_nines (count : Nat) : normalOperand (nines count) = nines count := by
  refine if_neg ?_
  rw [namesRegister, nines, String.toList_ofList]
  rcases count with _ | _ | count <;> simp [List.replicate_succ]

theorem regular_endingRows {count : Nat} (h : 0 < count) :
    ∀ r ∈ endingRows count, r.Regular := by
  have hret : IsLabel "RET".toList := ⟨by decide, by decide, rfl, rfl, rfl⟩
  have hdc : IsLabel "DC".toList := ⟨by decide, by decide, rfl, rfl, rfl⟩
  simp only [endingRows, List.forall_mem_cons]
  have hnone : "" ≠ "" → IsLabel "".toList := fun h => absurd rfl h
  refine ⟨regular_of_mnemonic hnone rfl hret, ?_, nofun⟩
  constructor
  case label => nofun
  case mnemonic => exact fun _ => hdc
  case operand =>
    simp only [List.forall_mem_singleton]
    exact fun _ => ⟨isLabel_nines h, (solid_nines (by decide) count).1⟩
  case closed =>
    have hclosed : Text.quotedAfter false "DC".toList = false := rfl
    exact .cons (fun _ _ _ => rfl) (.cons (fun _ _ _ => hclosed) (List.pairwise_singleton _ _))
  case upper => exact (by decide : Text.upper "DC" = "DC")
  case normal =>
    simp only [List.forall_mem_singleton]
    exact normalOperand_nines count
  case named => exact fun hm => absurd hm (by decide : "DC" ≠ "")
  case count => exact (by decide : 1 ≤ maxOperands)

theorem packed_endingRows {count : Nat} (h : 0 < count) :
    ∀ r ∈ endingRows count, r.packed = r := by
  have hne : nines count ≠ "" := by
    intro he
    exact (isLabel_nines h).ne_nil (congrArg String.toList he)
  simp [endingRows, Row.packed, hne]

/-- The text of the program has no carriage return. -/
theorem not_mem_programText_endingRows {count : Nat} (h : 0 < count) :
    '\r' ∉ (programText (endingRows count)).toList := by
  have hgap (width : Nat) (s : String) : '\r' ∉ gap width s := by
    intro hc
    cases eq_space_of_mem_gap hc
  have hnines : '\r' ∉ (nines count).toList := by
    intro hc
    cases eq_of_mem_nines hc
  have htext : ∀ r ∈ endingRows count, '\r' ∉ r.text.toList := by
    intro r hr hc
    rw [Row.toList_text, packed_endingRows h r hr] at hc
    have hc := (Text.trimEnd_prefix _).subset hc
    rcases List.mem_cons.mp hr with rfl | hr
    · simp [hgap] at hc
    · obtain rfl := List.mem_singleton.mp hr
      simp [hgap, hnines] at hc
  simp only [endingRows, List.forall_mem_cons] at htext
  rw [programText, endingRows, List.map_cons, List.map_cons, List.map_nil, toList_intercalate rfl,
    String.intercalate_singleton]
  rw [List.mem_append, List.mem_cons, not_or, not_or]
  exact ⟨htext.1, by decide, htext.2.1⟩

/-- The program is refused for its constant if this has too many digits. -/
theorem prepare_endingRows {count : Nat} (h : Numeral.maxDigits < count) :
    prepare 0 (programText (endingRows count)) =
      .error (.refused { complaint := .overlongNumber count }) := by
  have hpos : 0 < count := Nat.zero_lt_of_lt h
  have hread : readSource (programText (endingRows count)) = .ok (endingRows count) := by
    rw [readSource_programText (regular_endingRows hpos),
      List.map_congr_left (packed_endingRows hpos), List.map_id']
  obtain ⟨d, hret⟩ : ∃ d, Draft.ofRows 0 [⟨"", "RET", []⟩] = (.ok (), d) :=
    Workspace.exists_ofRows_of_isOk (w := { rows := [⟨"", "RET", []⟩] }) (by decide +kernel)
  have hassemble : ({ rows := endingRows count } : Workspace).assemble.1 =
      .error (.refused { complaint := .overlongNumber count }) :=
    Workspace.assemble_overlong hret (Operand.overlong?_replicate (by decide) h)
  exact prepare_of_assemble hread hassemble

/-- With a constant of 4301 digits the exit code is 2, although the base is not negative and no word
is stored below zero. -/
theorem exitCode_endingRows :
    Runs ["prog.cas"] (alone (programText (endingRows 4301))) { source := "prog.cas" } 0
        (programText (endingRows 4301)) ∧
      ∀ fuel, (outcome ["prog.cas"] (alone (programText (endingRows 4301))) fuel).map
          (fun out => (out.exitCode, out.stdout, out.stderr)) =
        some (2, "", "Internal error: " ++ Numeral.unreadableText 4301 ++ "\n") := by
  have hreturn : '\r' ∉ (programText (endingRows 4301)).toList :=
    not_mem_programText_endingRows (by decide)
  have hruns := runs_alone hreturn
  refine ⟨hruns, fun fuel => ?_⟩
  obtain ⟨journal, hout⟩ := outcome_eq_runSource hruns fuel
  obtain ⟨journal', hrun⟩ := runSource_eq { source := "prog.cas" } 0
    (programText (endingRows 4301)) {} journal fuel
  rw [hout]
  refine (congrArg (Option.map _) hrun).trans ?_
  rw [prepare_endingRows (by decide)]
  rfl

end Command

end WordMachine
