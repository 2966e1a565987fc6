import WordMachine.Proofs.Resolution

/-!
# Rows that make the same

A row may stand in the place of another if both define the same label and make the same cells or
complaints. A program with such rows in the places of others is assembled in the same way; if it is
refused, the diagnostic quotes the row that stands there now.

## Main definitions

* `Failure.quoting`: a failure with its line quoted from given rows
* `Row.Alike`: rows that may stand in the place of each other

## Main results

* `Workspace.assemble_alike`: programs of rows that are alike are assembled in the same way
-/

namespace WordMachine

/-! ## Quoted lines -/

/-- The diagnostic with its line, if it is about one, quoted from given rows. -/
def Diagnostic.quoting (rows : List Row) (d : Diagnostic) : Diagnostic :=
  if 0 < d.line then { d with lineText := (rows[(d.line - 1).toNat]?.map Row.text).getD "" } else d

/-- The failure with its line, if it is about one, quoted from given rows. -/
def Failure.quoting (rows : List Row) : Failure → Failure
  | refused d => refused (d.quoting rows)
  | negativeAddress e => negativeAddress e

/-- What is complained about at a row is complained about at the row in its place. -/
theorem Row.quoting_diagnostic {rows : List Row} {index : Nat} {r' : Row}
    (h : rows[index]? = some r') (r : Row) (c : Complaint) :
    (r.diagnostic index c).quoting rows = r'.diagnostic index c := by
  by_cases hk : c.kind = .number
  · rw [diagnostic_of_number hk, diagnostic_of_number hk]
    rfl
  · have hline : 0 < (index : Int) + 1 := by omega
    have hindex : ((index : Int) + 1 - 1).toNat = index := by omega
    rw [diagnostic_of_ne hk, diagnostic_of_ne hk, Diagnostic.quoting, if_pos hline]
    dsimp only
    rw [hindex, h]
    rfl

/-- References are resolved without a look at the rows. -/
theorem mapError_quoting_resolve (rows : List Row) (m : Memory) (symbols : SymbolTable)
    (references : List (Int × String)) :
    (resolve m symbols references).1.mapError (Failure.quoting rows) =
      (resolve m symbols references).1 := by
  induction references generalizing m with
  | nil => rfl
  | cons reference references ih =>
    rw [resolve]
    split
    · rfl
    · split
      · rfl
      · exact ih _

/-! ## Rows in the places of others -/

/-- Rows that may stand in the place of each other: they define the same label, make the same, and
begin the program in the same way. -/
structure Row.Alike (r r' : Row) : Prop where
  label : r'.label = r.label
  items : r'.items = r.items
  start : ∀ d : Draft, d.noteStart r' = d.noteStart r

instance : Std.Refl Row.Alike :=
  ⟨fun _ => ⟨rfl, rfl, fun _ => rfl⟩⟩

namespace Draft

variable {program rows rows' : List Row} {r r' : Row} {index : Nat}

theorem addItems_alike (h : program[index]? = some r') (d : Draft) (r : Row) (items : List Item) :
    d.addItems r' index items =
      ((d.addItems r index items).1.mapError (Failure.quoting program),
        (d.addItems r index items).2) := by
  induction items generalizing d with
  | nil => rfl
  | cons item items ih =>
    cases item with
    | error c =>
      -- the row is looked at only to be quoted
      rw [addItems, addItems, ← Row.quoting_diagnostic h r c]
      rfl
    | ok cell =>
      rw [addItems, addItems]
      split
      · rfl
      · exact ih _

theorem addRow_alike (h : program[index]? = some r') (hr : r.Alike r') (d : Draft) :
    d.addRow r' index =
      ((d.addRow r index).1.mapError (Failure.quoting program), (d.addRow r index).2) := by
  have hlabel : d.bindLabel r' = d.bindLabel r := by
    rw [bindLabel, bindLabel, hr.label]
  rw [addRow, addRow, hlabel, hr.items]
  cases d.bindLabel r with
  | error c =>
    dsimp only
    rw [← Row.quoting_diagnostic h r c]
    rfl
  | ok d =>
    dsimp only
    rw [hr.start, addItems_alike h]

theorem addRows_alike (hrows : List.Forall₂ Row.Alike rows rows')
    (h : program.drop index = rows') (d : Draft) :
    d.addRows index rows' =
      ((d.addRows index rows).1.mapError (Failure.quoting program), (d.addRows index rows).2) := by
  -- Induction on the rows. The program stays the whole one, since the diagnostics quote it.
  induction hrows generalizing d index with
  | nil => rfl
  | @cons r r' rows rows' hr _ ih =>
    have hrow : program[index]? = some r' := by
      rw [← List.head?_drop, h, List.head?_cons]
    have hrest : program.drop (index + 1) = rows' := by
      rw [← List.drop_drop, h, List.drop_succ_cons, List.drop_zero]
    rw [addRows, addRows, addRow_alike hrow hr]
    rcases d.addRow r index with ⟨_ | _, d⟩
    · rfl
    · exact ih hrest d

theorem ofRows_alike (hrows : List.Forall₂ Row.Alike rows rows') (base : Int) :
    ofRows base rows' = ((ofRows base rows).1.mapError (Failure.quoting rows'),
      (ofRows base rows).2) :=
  addRows_alike hrows rfl _

end Draft

namespace Workspace

/-- Programs of rows that are alike are assembled in the same way. -/
theorem assemble_alike (w : Workspace) {rows : List Row}
    (hrows : List.Forall₂ Row.Alike w.rows rows) :
    { w with rows }.assemble =
      (w.assemble.1.mapError (Failure.quoting rows), { w.assemble.2 with rows }) := by
  have hdraft := Draft.ofRows_alike hrows w.base
  rcases hd : Draft.ofRows w.base w.rows with ⟨f | u, d⟩ <;> rw [hd] at hdraft
  · rw [assemble_of_error hd, assemble_of_error (w := { w with rows }) hdraft]
    rfl
  · rw [assemble_of_ok hd, assemble_of_ok (w := { w with rows }) hdraft]
    -- the second pass does not look at the rows
    have hresolve : { w with rows }.resolveDraft d = w.resolveDraft d := rfl
    have hquoting := mapError_quoting_resolve rows (w.withDraft d).memory (w.withDraft d).symbols
      (w.withDraft d).references
    rw [← resolveDraft] at hquoting
    rw [hresolve]
    refine Prod.ext ?_ rfl
    cases hr : (w.resolveDraft d).1 with
    | error f =>
      rw [hr] at hquoting
      dsimp only [Except.map]
      rw [Except.mapError, Except.error.inj hquoting]
    | ok u => rfl

/-- A program that is refused is quoted as it stands. -/
theorem mapError_quoting_assemble (w : Workspace) :
    w.assemble.1.mapError (Failure.quoting w.rows) = w.assemble.1 :=
  (congrArg Prod.fst (w.assemble_alike (List.forall₂_refl w.rows))).symm

end Workspace

end WordMachine
