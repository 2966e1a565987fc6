import WordMachine.Proofs.Likeness
import WordMachine.Proofs.ObjectCode

/-!
# Macros as supervisor calls

An input or output macro is short for a supervisor call with its sub-type. Written out as this
call, it makes the same cells, and where an operand is refused, the same cells before it and the
same complaint. So a program is assembled in the same way whether a macro is written out or not.

## Main definitions

* `Row.IsCallOf`: a supervisor call that is a macro written out
* `Failure.retext`: a failure with another text for one row

## Main results

* `Row.IsCallOf.alike`: a macro may stand in the place of its supervisor call
* `Workspace.assemble_expanded`: a program with a macro written out is assembled in the same way
-/

namespace WordMachine

/-! ## A macro and its call -/

/-- A supervisor call that is a macro written out: it has the label and the two operands of the
macro, behind an operand that spells the macro's sub-type in any way. -/
structure Row.IsCallOf (call row : Row) : Prop where
  name : call.name = "SVC"
  label : call.label = row.label
  count : row.given.length = 2
  spelling : ∃ operand, call.given = operand :: row.given ∧
    (row.name = "IN" ∧ Operand.number? operand = some 1 ∨
      row.name = "OUT" ∧ Operand.number? operand = some 2)

namespace Row

theorem directive?_of_name {r : Row} {d : Directive} (h : r.name = d.name) :
    r.directive? = some d := by
  rw [directive?, h, Directive.ofName?_name]

namespace IsCallOf

variable {call row : Row}

theorem directive?_eq (h : call.IsCallOf row) : call.directive? = none := by
  rw [directive?, h.name]
  decide

/-- The directive of a macro that is written out, and the operand that spells its sub-type. -/
theorem exists_directive (h : call.IsCallOf row) :
    ∃ (d : Directive) (subtype : Nat) (operand : String), row.directive? = some d ∧
      (d = .input ∧ subtype = inputSubtype ∨ d = .output ∧ subtype = outputSubtype) ∧
      call.given = operand :: row.given ∧ Operand.number? operand = some (subtype : Int) := by
  obtain ⟨operand, hgiven, ⟨hname, hs⟩ | ⟨hname, hs⟩⟩ := h.spelling
  · exact ⟨.input, inputSubtype, operand, directive?_of_name hname, .inl ⟨rfl, rfl⟩, hgiven, hs⟩
  · exact ⟨.output, outputSubtype, operand, directive?_of_name hname, .inr ⟨rfl, rfl⟩, hgiven, hs⟩

/-- A macro and its supervisor call make the same. -/
theorem items_eq (h : call.IsCallOf row) : call.items = row.items := by
  obtain ⟨d, subtype, operand, hd, hmacro, hcall, hs⟩ := h.exists_directive
  obtain ⟨buffer, length, hrow⟩ := List.length_eq_two.mp h.count
  have hsvc : Mnemonic.ofName? call.name = some .svc := by
    rw [h.name]
    decide
  have hrange : 0 ≤ (subtype : Int) ∧ (subtype : Int) ≤ 15 := by
    rcases hmacro with ⟨-, rfl⟩ | ⟨-, rfl⟩ <;> decide
  rw [hrow] at hcall
  rw [items_of_supervisor h.directive?_eq hsvc hcall hs hrange, items_of_call hd hmacro hrow]

/-- A macro may stand in the place of its supervisor call. -/
theorem alike (h : call.IsCallOf row) : row.Alike call where
  label := h.label
  items := h.items_eq
  start := by
    intro draft
    obtain ⟨d, subtype, -, hd, hmacro, -⟩ := h.exists_directive
    -- neither of them begins the program
    have hstart : row.directive? ≠ some .start := by
      rw [hd]
      rcases hmacro with ⟨rfl, -⟩ | ⟨rfl, -⟩ <;> decide
    rw [Draft.noteStart, Draft.noteStart, if_neg hstart, if_neg (by rw [h.directive?_eq]; nofun)]

end IsCallOf

end Row

/-! ## Programs with one row replaced -/

/-- The failure, with another text for the row with an index where it is about this row. -/
def Failure.retext (index : Nat) (text : String) : Failure → Failure
  | refused d => refused (if d.line = index + 1 then { d with lineText := text } else d)
  | negativeAddress e => negativeAddress e

/-- When one row is replaced, a failure quotes another text only where it is about this row. -/
theorem Failure.quoting_set {rows : List Row} {index : Nat} {row : Row} {f : Failure}
    (hrow : index < rows.length) (hf : f.quoting rows = f) :
    f.quoting (rows.set index row) = f.retext index row.text := by
  cases f with
  | negativeAddress e => rfl
  | refused d =>
    have hd : d.quoting rows = d := Failure.refused.inj hf
    rw [quoting, retext, Diagnostic.quoting]
    rw [Diagnostic.quoting] at hd
    by_cases hline : d.line = index + 1
    · -- the diagnostic is about the row that was replaced
      have hpos : 0 < d.line := by omega
      have hindex : (d.line - 1).toNat = index := by omega
      rw [if_pos hpos, if_pos hline, hindex, List.getElem?_set_self hrow]
      rfl
    · rw [if_neg hline]
      by_cases hpos : 0 < d.line
      · -- it is about another row, which stands where it stood
        have hindex : index ≠ (d.line - 1).toNat := by omega
        rw [if_pos hpos] at hd ⊢
        rw [List.getElem?_set_ne hindex, hd]
      · rw [if_neg hpos]

theorem Row.Alike.set {rows : List Row} {index : Nat} {row row' : Row} (h : row.Alike row')
    (hrow : rows[index]? = some row) : List.Forall₂ Row.Alike rows (rows.set index row') := by
  obtain ⟨hlt, rfl⟩ := List.getElem?_eq_some_iff.mp hrow
  refine List.forall₂_iff_get.mpr ⟨List.length_set.symm, ?_⟩
  intro i _ _
  simp only [List.get_eq_getElem, List.getElem_set]
  split
  · next hi =>
    subst hi
    exact h
  · exact Std.Refl.refl _

namespace Workspace

/-- **Macros.** A program in which a macro with two operands is written out as its supervisor call
is assembled in the same way: memory, labels, references, address map, literal pool and entry are
the same, and if it is refused, it is for the same complaint about the same line; only the text of
this line may differ. -/
theorem assemble_expanded (w : Workspace) {index : Nat} {row call : Row}
    (hrow : w.rows[index]? = some row) (h : call.IsCallOf row) :
    let expanded := { w with rows := w.rows.set index call }
    expanded.assemble = (w.assemble.1.mapError (Failure.retext index call.text),
        { w.assemble.2 with rows := expanded.rows }) ∧
      expanded.assemble.2.entryAddress = w.assemble.2.entryAddress := by
  intro expanded
  have hassemble : expanded.assemble = (w.assemble.1.mapError (Failure.retext index call.text),
      { w.assemble.2 with rows := expanded.rows }) := by
    have halike := w.assemble_alike (h.alike.set hrow)
    have hquoted := w.mapError_quoting_assemble
    have hlt := (List.getElem?_eq_some_iff.mp hrow).1
    refine halike.trans (Prod.ext ?_ rfl)
    cases hresult : w.assemble.1 with
    | ok map => rfl
    | error f =>
      rw [hresult] at hquoted
      exact congrArg Except.error (Failure.quoting_set hlt (Except.error.inj hquoted))
  refine ⟨hassemble, ?_⟩
  rw [hassemble]
  rfl

/-- A program that is entered at a macro, and puts out what the macro has taken in. -/
def askAndTell : Workspace where
  base := 8
  rows :=
    [⟨"", "START", ["ASK"]⟩, ⟨"ASK", "IN", ["BUF", "=#0010"]⟩, ⟨"", "OUT", ["BUF", "=#0010"]⟩,
      ⟨"", "RET", []⟩, ⟨"BUF", "DS", []⟩, ⟨"", "END", []⟩]

theorem assemble_expanded_askAndTell :
    let row : Row := ⟨"ASK", "IN", ["BUF", "=#0010"]⟩
    let call : Row := ⟨"ASK", "SVC", ["#0001", "BUF", "=#0010"]⟩
    let expanded := { askAndTell with rows := askAndTell.rows.set 1 call }
    askAndTell.rows[1]? = some row ∧ call.IsCallOf row ∧ askAndTell.assemble.1.isOk = true ∧
      expanded.assemble = (askAndTell.assemble.1.mapError (Failure.retext 1 call.text),
        { askAndTell.assemble.2 with rows := expanded.rows }) ∧
      expanded.assemble.2.entryAddress = askAndTell.assemble.2.entryAddress := by
  intro row call expanded
  have hcall : call.IsCallOf row :=
    ⟨by decide, rfl, by decide, "#0001", by decide, .inl ⟨by decide, by decide⟩⟩
  exact ⟨rfl, hcall, by decide +kernel, assemble_expanded askAndTell rfl hcall⟩

end Workspace

end WordMachine
