import WordMachine.Proofs.Reading

/-!
# Lists of operands

Commas join operands to a field, and the field is cut at its commas again. Quotes carry over from
one operand to the next: where quotes are open a comma is text, and quotes that are never closed
swallow all commas behind them. So the lists that a field can be cut into are those in which no
operand has a comma outside quotes and only the last operand leaves quotes open, and on these lists
joining and cutting are inverse to each other.

## Main definitions

* `IsOperandList`: the lists of operands of a field

## Main results

* `isOperandList_splitOperands`: a field is cut into such a list
* `splitOperands_eq_iff`: a field is cut into a list of operands exactly if they join to the field
-/

namespace WordMachine

/-- All elements of a list but the last one have a property. -/
theorem pairwise_iff_forall_mem_dropLast {α : Type} {P : α → Prop} {l : List α} :
    (l.Pairwise fun a _ => P a) ↔ ∀ a ∈ l.dropLast, P a := by
  constructor
  · intro h a ha
    exact h.rel_dropLast_getLast ha
  · intro h
    induction l with
    | nil => exact .nil
    | cons a l ih =>
      cases l with
      | nil => exact List.pairwise_singleton _ _
      | cons b l =>
        rw [List.dropLast_cons_cons, List.forall_mem_cons] at h
        exact .cons (fun _ _ => h.1) (ih h.2)

/-- The lists of operands that a field can be cut into. -/
structure IsOperandList (operands : List String) : Prop where
  /-- There is one operand at least: that of an empty field is empty. -/
  ne_nil : operands ≠ []
  /-- Every operand but the last has an even number of apostrophes. -/
  closed : ∀ o ∈ operands.dropLast, Text.Closed o.toList
  /-- No operand has a comma outside quotes. -/
  comma : ∀ o ∈ operands, Text.OnlyQuoted (· == ',') o.toList

theorem isOperandList_splitOperands (field : String) : IsOperandList (splitOperands field) where
  ne_nil := mt List.map_eq_nil_iff.mp (Text.splitOutside_ne_nil _ _ _)
  closed := by
    have hpairwise := pairwise_splitOperands field
    simp only [Text.quotedAfter_false_eq_false_iff] at hpairwise
    exact pairwise_iff_forall_mem_dropLast.mp hpairwise
  comma := fun _ => onlyQuoted_of_mem_splitOperands

namespace IsOperandList

/-- Operands that are joined by commas are found again. -/
theorem splitOperands_intercalate_eq {operands : List String} (h : IsOperandList operands) :
    splitOperands (",".intercalate operands) = operands := by
  refine splitOperands_intercalate h.ne_nil ?_ ?_
  · intro o ho
    exact (Text.solid_iff_onlyQuoted rfl).mpr (h.comma o ho)
  · simp only [Text.quotedAfter_false_eq_false_iff]
    exact pairwise_iff_forall_mem_dropLast.mpr h.closed

end IsOperandList

/-- **Cutting and joining are inverse.** A field is cut into some operands exactly if these are a
list of operands and commas join them to the field. -/
theorem splitOperands_eq_iff {field : String} {operands : List String} :
    splitOperands field = operands ↔
      IsOperandList operands ∧ ",".intercalate operands = field := by
  constructor
  · rintro rfl
    exact ⟨isOperandList_splitOperands field, intercalate_splitOperands field⟩
  · rintro ⟨h, rfl⟩
    exact h.splitOperands_intercalate_eq

/-- Quotes that are left open keep the commas behind them. -/
example : splitOperands "'a,b',,'c,d" = ["'a,b'", "", "'c,d"] := by decide +kernel

end WordMachine
