import WordMachine.Proofs.Fields
import WordMachine.Proofs.Refusal

/-!
# Labels that can be referred to

A label is what stands in front of a line up to the first blank, and an operand is read by other
rules: it is cut at commas, registers are recognised in either case, and an equals sign or an
apostrophe at the front makes it a literal or a string. So not every label that a program can define
can also be referred to. The labels that can are those that are one operand and none of the others,
and a jump to such a label behind any program finds its address.

## Main definitions

* `Operand.isReferable`: a label is read as a reference where it stands as an operand
* `withJump`: a program text with one more line that jumps to a label

## Main results

* `Mnemonic.mem_of_encode`: an address operand is one of the operands, and no register
* `Workspace.Assembly.exists_assembly_snoc`: a row that refers to known labels can be added
* `Workspace.isReferable_iff`: the labels to which a jump can be added
-/

namespace WordMachine

/-! ## Labels as operands -/

namespace Operand

/-- A label is read as a reference where it stands as an operand: it is one operand, and neither a
literal nor a string nor a register. -/
def isReferable (label : String) : Bool :=
  splitOperands label == [label] && !isLiteral label && !startsWith label '\'' &&
    !namesRegister label

theorem isReferable_eq_true_iff {label : String} :
    isReferable label = true ↔ splitOperands label = [label] ∧ isLiteral label = false ∧
      startsWith label '\'' = false ∧ namesRegister label = false := by
  simp [isReferable, and_assoc]

theorem spelling_of_not_mem {s : String} (h : '\n' ∉ s.toList) : spelling s = s.toList := by
  unfold spelling dropFinalNewline
  split
  · next hl => exact absurd (List.mem_of_getLast? hl) h
  · rfl

theorem isDigit_eq (c : Char) : isDigit c = c.isDigit := rfl

/-- On one line a register is spelled so that its name is recognised. -/
theorem isRegisterLike_of_namesRegister {s : String} (hline : '\n' ∉ s.toList)
    (h : namesRegister s = false) : isRegisterLike s = false := by
  unfold isRegisterLike
  rw [spelling_of_not_mem hline]
  split
  · next cs hs =>
    simp only [namesRegister, hs] at h
    simpa [isDigit_eq] using h
  · rfl

theorem upperChar_of_toUpper {c d : Char} (hd : d.toNat < 0x80) (h : c.toUpper = d) :
    Text.upperChar c = [d] := by
  rw [Text.upperChar_of_lt, h]
  unfold Char.toUpper at h
  split at h
  · next hc =>
    have hz : c.val.toNat ≤ 122 := UInt32.le_iff_toNat_le.mp hc.2
    show c.val.toNat < 0x80
    omega
  · rwa [h]

theorem upperChar_of_isDigit {c : Char} (h : c.isDigit = true) : Text.upperChar c = [c] := by
  simp only [Char.isDigit, Bool.and_eq_true, decide_eq_true_eq] at h
  have h9 : c.val.toNat ≤ 57 := UInt32.le_iff_toNat_le.mp h.2
  refine upperChar_of_toUpper (show c.val.toNat < 0x80 by omega) ?_
  unfold Char.toUpper
  rw [dif_neg]
  rintro ⟨ha, -⟩
  have h97 : 97 ≤ c.val.toNat := UInt32.le_iff_toNat_le.mp ha
  omega

/-- A register's name in upper case is spelled like a register. -/
theorem isRegisterLike_upper {s : String} (h : namesRegister s = true) :
    isRegisterLike (Text.upper s) = true := by
  unfold namesRegister at h
  split at h
  · next g r digits hs =>
    simp only [Bool.and_eq_true, beq_iff_eq, List.all_eq_true] at h
    obtain ⟨⟨⟨hg, hr⟩, hne⟩, hdigits⟩ := h
    have hupper : digits.flatMap Text.upperChar = digits := by
      rw [List.flatMap_congr fun c hc => upperChar_of_isDigit (hdigits c hc)]
      exact List.flatMap_singleton' digits
    have hlist : (Text.upper s).toList = 'G' :: 'R' :: digits := by
      rw [Text.upper, String.toList_ofList, hs, List.flatMap_cons, List.flatMap_cons, hupper,
        upperChar_of_toUpper (by decide) hg, upperChar_of_toUpper (by decide) hr]
      rfl
    have hline : '\n' ∉ (Text.upper s).toList := by
      rw [hlist]
      intro hm
      have hm : '\n' ∈ digits := by simpa using hm
      cases hdigits _ hm
    unfold isRegisterLike
    rw [spelling_of_not_mem hline, hlist]
    simpa [isDigit_eq, hne] using hdigits
  · cases h

end Operand

namespace Mnemonic

/-- A jump with an address operand is encoded with it. -/
theorem encode_jump {operand : String} (h : Operand.isRegisterLike operand = false) :
    jump.encode [operand] = .ok ⟨Word.encode 0x64 0 0, some operand⟩ := by
  have hoperand : jump.addressOperand operand = .ok operand := by simp [addressOperand, h]
  simp [encode, registerPair?, encodeAddressForm, opcode?, leadingRegister, takesAddressFirst,
    addressFirst, addressAndIndex, hoperand, bind, Except.bind, pure, Except.pure]

end Mnemonic

/-! ## The row of a jump -/

/-- The cell of an address operand waits for no other symbol than the operand, and this is no
string. -/
theorem Cell.of_symbol?_ofAddress {operand s : String} {c : Cell} (h : ofAddress operand = .ok c)
    (hs : c.symbol? = some s) : s = operand ∧ Operand.startsWith operand '\'' = false := by
  cases ofAddress_eq_ok h with
  | literal hstart =>
    refine ⟨(Option.some.inj hs).symm, ?_⟩
    simp only [Operand.startsWith, beq_iff_eq] at hstart ⊢
    rw [hstart]
    rfl
  | number => cases hs
  | label _ _ hstring => exact ⟨(Option.some.inj hs).symm, hstring⟩

section JumpRow

variable {label : String}

theorem items_jumpRow (label : String) :
    (jumpRow label).items = Mnemonic.jump.items (jumpRow label).given := by
  have hname : (jumpRow label).name = "JUMP" := by
    show Text.upper "JUMP" = "JUMP"
    decide
  have hd : (jumpRow label).directive? = none := by
    rw [Row.directive?, hname]
    decide
  refine Row.items_of_instruction hd ?_
  rw [hname]
  decide

theorem given_jumpRow_subset (label : String) :
    ∀ operand ∈ (jumpRow label).given, operand ∈ (splitOperands label).map normalOperand := by
  intro operand hm
  exact List.mem_of_mem_take (List.mem_of_mem_filter hm)

/-- A jump whose operand word waits for the label refers to it by a name that is one operand, and
neither a string nor a register. -/
theorem of_cells_jumpRow {c : Cell} (h : (jumpRow label).complaint? = none)
    (hc : (jumpRow label).cells[1]? = some c) (hs : c.symbol? = some label) :
    splitOperands label = [label] ∧ Operand.startsWith label '\'' = false ∧
      namesRegister label = false := by
  rw [Row.complaint?, items_jumpRow, Mnemonic.items, if_neg (by decide)] at h
  rw [Row.cells, items_jumpRow, Mnemonic.items, if_neg (by decide)] at hc
  cases he : Mnemonic.jump.encode (jumpRow label).given with
  | error c' =>
    rw [he] at h
    cases h
  | ok e =>
    rw [he] at hc
    cases ha : e.address with
    | none =>
      simp [ha, cellsOf] at hc
    | some operand =>
      obtain ⟨hmem, hlike⟩ := Mnemonic.mem_of_encode he ha
      cases hcell : Cell.ofAddress operand with
      | error c' => simp [ha, hcell, cellsOf] at hc
      | ok c' =>
        obtain rfl : c' = c := by simpa [ha, hcell, cellsOf] using hc
        obtain ⟨rfl, hstring⟩ := Cell.of_symbol?_ofAddress hcell hs
        obtain ⟨piece, hpiece, hnormal⟩ := List.mem_map.mp (given_jumpRow_subset _ _ hmem)
        -- in upper case the piece would be spelled like a register
        have hname : namesRegister piece = false := by
          by_contra hname
          rw [Bool.not_eq_false] at hname
          rw [normalOperand, if_pos hname] at hnormal
          rw [← hnormal, Operand.isRegisterLike_upper hname] at hlike
          cases hlike
        rw [normalOperand, if_neg (by simp [hname])] at hnormal
        subst hnormal
        refine ⟨?_, hstring, hname⟩
        obtain ⟨cs, hcs, hofList⟩ := List.mem_map.mp hpiece
        have hlist : piece.toList = cs := by rw [← hofList, String.toList_ofList]
        have hself : piece.toList ∈ Text.splitOutside (· == ',') false piece.toList := by
          rwa [hlist] at hcs ⊢
        rw [splitOperands, Text.solid_of_mem_splitOutside hself, List.map_singleton,
          String.ofList_toList]

/-- A jump to a label that can be referred to makes its instruction word and the cell of the
label. -/
theorem items_jumpRow_of_isReferable (h : Operand.isReferable label = true)
    (hlabel : IsLabel label.toList) (hn : Operand.number? label = none)
    (ho : Operand.overlong? label = none) :
    (jumpRow label).items = [.ok (.word (Word.encode 0x64 0 0)), .ok (.label label)] := by
  obtain ⟨hsingle, hliteral, hstring, hname⟩ := Operand.isReferable_eq_true_iff.mp h
  have hlike := Operand.isRegisterLike_of_namesRegister hlabel.newline hname
  have hne : label ≠ "" := by
    rintro rfl
    exact hlabel.ne_nil rfl
  have hgiven : (jumpRow label).given = [label] := by
    simp [jumpRow, Row.given, hsingle, normalOperand, hname, maxOperands, hne]
  have hcell : Cell.ofAddress label = .ok (.label label) := by
    rw [Operand.isLiteral] at hliteral
    simp [Cell.ofAddress, Operand.readable_of_none ho, hliteral, hn, hstring, hlike]
  rw [items_jumpRow, hgiven, Mnemonic.items, if_neg (by decide), Mnemonic.encode_jump hlike]
  simp [hcell]

end JumpRow

/-! ## Programs with one more row -/

theorem Draft.ofRows_snoc_eq_ok {base : Int} {rows : List Row} {d : Draft} {row : Row}
    (hd : ofRows base rows = (.ok (), d)) (ht : d.Takes row) :
    ofRows base (rows ++ [row]) = (.ok (), d.extend row rows.length) := by
  rw [ofRows] at hd ⊢
  rw [addRows_append, hd]
  simp only [Nat.zero_add, addRows, addRow_eq_ok_iff.mpr ⟨ht, rfl⟩]

/-- A label of a program that is accepted is no number, not even one that cannot be read. -/
theorem Draft.number?_of_addRows {d d' : Draft} {index : Nat} {rows : List Row}
    (h : d.addRows index rows = (.ok (), d')) {r : Row} (hr : r ∈ rows) (hl : r.label ≠ "") :
    Operand.number? r.label = none ∧ Operand.overlong? r.label = none := by
  induction rows generalizing d index with
  | nil => cases hr
  | cons row rows ih =>
    obtain ⟨ht, h⟩ := addRows_cons_eq_ok h
    rcases List.mem_cons.mp hr with rfl | hr
    · have hc := ht.label
      rw [labelComplaint?, if_neg hl] at hc
      split at hc
      · cases hc
      · next hname =>
        simp only [Bool.or_eq_true, not_or, Bool.not_eq_true] at hname
        split at hc
        · cases hc
        · next ho => exact ⟨by simpa using hname.2, ho⟩
    · exact ih h hr

namespace Workspace

/-- After the first pass a symbol has an address if it is a label or a literal of the program. -/
theorem isSome_symbols_iff {w : Workspace} {d : Draft} (hd : LaidOut w.base w.rows d)
    (s : String) :
    (w.withDraft d).symbols[s]?.isSome = true ↔ s ∈ d.labels ∨ s ∈ w.tokens := by
  have hl : (w.withDraft d).literals = placeLiterals d.address d.pool ∅ := rfl
  rw [getElem?_symbols, Option.isSome_or, Bool.or_comm, Bool.or_eq_true, hl,
    ← Std.ExtTreeMap.mem_iff_isSome_getElem?, ← Std.ExtTreeMap.mem_iff_isSome_getElem?,
    mem_placeLiterals_iff (hd.pool_eq ▸ nodup_poolOf _), tokens_of_laidOut hd]
  rfl

/-- The symbols of a program that is assembled are its labels and literals. -/
theorem Assembly.known {w w' : Workspace} {d : Draft} (ha : w.Assembly d w') {c : Cell} {i : Nat}
    (hc : (c, i) ∈ programCells w.rows) {s : String} (hs : c.symbol? = some s) :
    s ∈ d.labels ∨ s ∈ w.tokens := by
  obtain ⟨n, hn⟩ := List.getElem?_of_mem hc
  obtain ⟨target, ht⟩ := ha.exists_symbol hn hs
  have hsymbols : w'.symbols = (w.withDraft d).symbols := by
    rw [ha.rest_eq]
    rfl
  rw [← isSome_symbols_iff ha.laidOut, ← hsymbols, ht]
  rfl

/-- A program whose rows are accepted is assembled if all its symbols are labels and literals of
its own. -/
theorem exists_assembly_of_known {w : Workspace} {d : Draft}
    (hd : Draft.ofRows w.base w.rows = (.ok (), d)) (hb : 0 ≤ w.base)
    (known : ∀ c i, (c, i) ∈ programCells w.rows → ∀ s, c.symbol? = some s →
      s ∈ d.labels ∨ s ∈ w.tokens) :
    ∃ w', w.assemble = (.ok w'.addressMap, w') ∧ w.Assembly d w' := by
  have hlaid := Draft.laidOut_of_ofRows hd
  have hrefs : (w.withDraft d).references = openPlaces w.base ((programCells w.rows).map (·.1)) :=
    hlaid.references_eq
  have hnonneg : ∀ r ∈ (w.withDraft d).references, 0 ≤ r.1 := fun r hr =>
    openPlaces_nonneg hb (hrefs ▸ hr)
  have hfind : ((w.withDraft d).references.find? fun r =>
      ((w.withDraft d).symbols[r.2]?).isNone) = none := by
    rw [List.find?_eq_none]
    rintro ⟨a, s⟩ hm
    rw [hrefs, mem_openPlaces_iff] at hm
    obtain ⟨n, c, hc, hs, -⟩ := hm
    obtain ⟨⟨c, i⟩, hcell, rfl⟩ := List.mem_map.mp (List.mem_of_getElem? hc)
    have hsome := (isSome_symbols_iff hlaid s).mpr (known c i hcell s hs)
    rw [Option.isNone_eq_false_iff.mpr hsome]
    exact Bool.false_ne_true
  refine assemble_of_resolveDraft hd ?_
  rw [resolveDraft, resolve_fst _ _ hnonneg, hfind]
  rfl

/-- The workspace of a program with one more row. -/
def snoc (w : Workspace) (row : Row) : Workspace :=
  { w with rows := w.rows ++ [row] }

@[simp] theorem base_snoc (w : Workspace) (row : Row) : (w.snoc row).base = w.base := rfl

@[simp] theorem rows_snoc (w : Workspace) (row : Row) : (w.snoc row).rows = w.rows ++ [row] := rfl

/-- Behind a program that is assembled there is room for a row that uses no literals, defines no
label and refers to labels of the program. -/
theorem Assembly.exists_assembly_snoc {w w' : Workspace} {d : Draft} {row : Row}
    (ha : w.Assembly d w') (hd : Draft.ofRows w.base w.rows = (.ok (), d)) (hb : 0 ≤ w.base)
    (hlabel : row.label = "") (hsound : row.complaint? = none)
    (hsymbols : ∀ c ∈ row.cells, ∀ s, c.symbol? = some s → s ∈ d.labels) :
    ∃ v', (w.snoc row).assemble = (.ok v'.addressMap, v') ∧
      (w.snoc row).Assembly (d.extend row w.rows.length) v' := by
  have hplace : 0 ≤ d.address := by
    rw [ha.draft_address_eq]
    omega
  have htakes : d.Takes row := by
    refine ⟨?_, hsound, .inr hplace⟩
    rw [Draft.labelComplaint?, if_pos hlabel]
  refine exists_assembly_of_known (w := w.snoc row) (Draft.ofRows_snoc_eq_ok hd htakes) hb ?_
  intro c i hc s hs
  rw [Draft.labels_extend, if_pos hlabel]
  rw [rows_snoc, programCells_snoc, List.mem_append] at hc
  rcases hc with hc | hc
  · -- a symbol of the program: its literals are still literals with one more row
    refine (ha.known hc hs).imp id ?_
    intro hm
    rw [tokens, List.mem_eraseDups] at hm ⊢
    rw [rows_snoc, List.flatMap_append]
    exact List.mem_append_left _ hm
  · obtain ⟨c', hcell, he⟩ := List.mem_map.mp hc
    obtain ⟨rfl, -⟩ := Prod.mk.inj he
    exact .inl (hsymbols c' hcell s hs)

/-- A symbol that is no literal stands for the label. -/
theorem Assembly.getElem?_symbols_of_label {w w' : Workspace} {d : Draft} (ha : w.Assembly d w')
    {s : String} (hs : Operand.isLiteral s = false) : w'.symbols[s]? = w'.labels[s]? := by
  rw [getElem?_symbols, ha.getElem?_literals_of_startsWith hs]
  rfl

/-! ## Jumps to labels -/

/-- A program text with one more line that jumps to a label. -/
def withJump (source : String) (blanks : List Char) (gap : Char) (label : String) : String :=
  source ++ "\n" ++ String.ofList (jumpLine blanks gap label)

/-- A blank that does not end a line. -/
def IsInnerBlank (c : Char) : Prop :=
  Text.isBlank c = true ∧ c ≠ '\n'

theorem ofSource_eq_ok {memory : Memory} {base : Int} {source : String} {w : Workspace}
    (h : ofSource memory base source = .ok w) :
    ∃ rows, readSource source = .ok rows ∧ w = { memory, base, rows } := by
  obtain ⟨rows, hrows, h⟩ := bind_eq_ok h
  exact ⟨rows, hrows, (Except.ok.inj h).symm⟩

section Jump

variable {memory : Memory} {base : Int} {source : String} {w w' : Workspace} {map : AddressMap}
  {label : String} {blanks : List Char} {gap : Char}
  (hw : ofSource memory base source = .ok w) (hne : blanks ≠ [])
  (hblanks : ∀ c ∈ blanks, IsInnerBlank c) (hgap : IsInnerBlank gap)
include hw hne hblanks hgap

/-- A line that jumps to a label adds its row to the program, if there is room for the operands. -/
theorem ofSource_withJump_eq_ok_iff (hl : IsLabel label.toList) {v : Workspace} :
    ofSource memory base (withJump source blanks gap label) = .ok v ↔
      (splitOperands label).length ≤ maxOperands ∧ v = w.snoc (jumpRow label) := by
  obtain ⟨rows, hrows, rfl⟩ := ofSource_eq_ok hw
  have hline : '\n' ∉ jumpLine blanks gap label := by
    simp only [jumpLine, List.mem_append, List.mem_cons, not_or]
    refine ⟨?_, by simp, Ne.symm hgap.2, hl.newline⟩
    intro hm
    exact (hblanks _ hm).2 rfl
  have hread := hl.readStatement_jumpLine (fun c hc => (hblanks c hc).1) hgap.1 hne
    (1 + (Text.pieces source).length)
  rw [ofSource, withJump, readSource_append hrows hline, hread]
  by_cases hroom : (splitOperands label).length ≤ maxOperands
  · rw [if_pos hroom]
    simp only [hroom, true_and]
    constructor
    · intro h
      exact (Except.ok.inj h).symm
    · rintro rfl
      rfl
  · rw [if_neg hroom]
    simp only [hroom, false_and, iff_false]
    intro h
    cases h

end Jump

/-- A program with a jump behind it: from `w`, which was assembled into `w'`, to `v`, which is
assembled into `v'`. The same labels are bound, and the operand word of the jump refers to the label
and holds its address. -/
structure Jumps (w' v v' : Workspace) (place : Int) (label : String) : Prop where
  assembled : v.assemble = (.ok v'.addressMap, v')
  labels : v'.labels = w'.labels
  reference : (place, label) ∈ v'.references
  word : v'.memory.get? place = w'.labels[label]?

namespace Assembly

variable {w w' : Workspace} {d : Draft} {label : String} (ha : w.Assembly d w')
include ha

/-- A jump to a label that can be referred to is assembled behind the program. -/
theorem exists_jumps (hd : Draft.ofRows w.base w.rows = (.ok (), d)) (hb : 0 ≤ w.base)
    (hlabel : IsLabel label.toList) (hn : Operand.number? label = none)
    (ho : Operand.overlong? label = none) (hm : label ∈ w'.labels)
    (h : Operand.isReferable label = true) :
    ∃ v', Jumps w' (w.snoc (jumpRow label)) v' (w.poolAddress + 1) label := by
  have hitems := items_jumpRow_of_isReferable h hlabel hn ho
  have hcells : (jumpRow label).cells = [.word (Word.encode 0x64 0 0), .label label] := by
    rw [Row.cells, hitems]
    rfl
  have hsound : (jumpRow label).complaint? = none := by
    rw [Row.complaint?, hitems]
    rfl
  have hsymbols : ∀ c ∈ (jumpRow label).cells, ∀ s, c.symbol? = some s → s ∈ d.labels := by
    intro c hc s hs
    rw [hcells] at hc
    rcases List.mem_cons.mp hc with rfl | hc
    · cases hs
    · obtain rfl := List.mem_singleton.mp hc
      exact Option.some.inj hs ▸ ha.labels_eq ▸ hm
  obtain ⟨v', hv, hv'⟩ := ha.exists_assembly_snoc hd hb rfl hsound hsymbols
  have hlabels : v'.labels = w'.labels := by
    have hnone : (jumpRow label).label = "" := rfl
    rw [hv'.labels_eq, Draft.labels_extend, if_pos hnone, ha.labels_eq]
  have href : (w.poolAddress + 1, label) ∈ v'.references := by
    rw [hv'.references_eq, mem_openPlaces_iff]
    refine ⟨(programCells w.rows).length + 1, .label label, ?_, rfl, ?_⟩
    · rw [rows_snoc, programCells_snoc, hcells]
      simp
    · rw [ha.poolAddress_eq, ha.draft_address_eq, base_snoc]
      omega
  refine ⟨v', hv, hlabels, href, ?_⟩
  rw [hv'.get?_reference href, ← hlabels]
  exact hv'.getElem?_symbols_of_label (Operand.isReferable_eq_true_iff.mp h).2.1

/-- The address of a label is not behind the program. -/
theorem le_poolAddress {a : Int} (hl : w'.labels[label]? = some a) : a ≤ w.poolAddress := by
  rw [ha.labels_eq] at hl
  obtain ⟨-, i, r, hr, -, rfl⟩ := (ha.laidOut.labels_iff label a).mp hl
  have hle : offset w.rows i ≤ offset w.rows w.rows.length :=
    offset_le_offset (Nat.le_of_lt (List.getElem?_eq_some_iff.mp hr).1)
  rw [ha.poolAddress_eq, ha.laidOut.address_eq]
  omega

/-- If the operand word of a jump behind the program refers to a label, the label can be referred
to. -/
theorem isReferable_of_jumps {v' : Workspace} (hm : label ∈ w'.labels)
    (h : Jumps w' (w.snoc (jumpRow label)) v' (w.poolAddress + 1) label) :
    Operand.isReferable label = true := by
  obtain ⟨⟨e, hv'⟩, -⟩ := assemble_eq_ok h.assembled
  have hsound : (jumpRow label).complaint? = none :=
    hv'.laidOut.sound _ (by rw [rows_snoc]; exact List.mem_append_right _ List.mem_cons_self)
  -- the operand word is the second cell of the jump
  obtain ⟨n, i, c, hc, hs, hplace⟩ := hv'.exists_of_references h.reference
  have hn : n = (programCells w.rows).length + 1 := by
    rw [ha.poolAddress_eq, ha.draft_address_eq, base_snoc] at hplace
    omega
  have hlt := (List.getElem?_eq_some_iff.mp hc).1
  have hcell : (jumpRow label).cells[1]? = some c := by
    rw [hn, rows_snoc, programCells_snoc, List.getElem?_append_right (by omega),
      Nat.add_sub_cancel_left, List.getElem?_map, Option.map_eq_some_iff] at hc
    obtain ⟨c', hc', he⟩ := hc
    rw [hc', (Prod.mk.inj he).1]
  obtain ⟨hsingle, hstring, hregister⟩ := of_cells_jumpRow hsound hcell hs
  refine Operand.isReferable_eq_true_iff.mpr ⟨hsingle, ?_, hstring, hregister⟩
  -- a literal would stand for its pool word, which lies behind all labels
  by_contra hliteral
  rw [Bool.not_eq_false] at hliteral
  obtain ⟨j, hj⟩ := hv'.exists_tokens_of_references h.reference hliteral
  obtain ⟨a, hl⟩ := Option.isSome_iff_exists.mp (Std.ExtTreeMap.mem_iff_isSome_getElem?.mp hm)
  have hword := h.word
  rw [hv'.get?_reference h.reference, hv'.getElem?_symbols_of_tokens hj, hl] at hword
  have hle := ha.le_poolAddress hl
  have hpool := hv'.poolAddress_eq
  rw [hv'.draft_address_eq, base_snoc] at hpool
  rw [ha.poolAddress_eq, ha.draft_address_eq] at hle
  have ha' := Option.some.inj hword
  omega

end Assembly

/-- **Labels as operands.** Behind a program that is assembled a jump to one of its labels can be
added, and is assembled to the address of the label, exactly if the label can be referred to. -/
theorem isReferable_iff {memory : Memory} {base : Int} {source : String} {w w' : Workspace}
    {map : AddressMap} (hw : ofSource memory base source = .ok w)
    (h : w.assemble = (.ok map, w')) (hb : 0 ≤ base) {label : String} (hl : label ∈ w'.labels)
    {blanks : List Char} {gap : Char} (hne : blanks ≠ [])
    (hblanks : ∀ c ∈ blanks, IsInnerBlank c) (hgap : IsInnerBlank gap) :
    Operand.isReferable label = true ↔
      ∃ v v', ofSource memory base (withJump source blanks gap label) = .ok v ∧
        Jumps w' v v' (w.poolAddress + 1) label := by
  obtain ⟨rows, hrows, hwrows⟩ := ofSource_eq_ok hw
  obtain ⟨d, hd, ha, -⟩ := exists_draft_of_assemble h
  -- the label is that of a row of the program
  obtain ⟨hnonempty, hrow⟩ := (ha.laidOut.mem_labels_iff label).mp (ha.labels_eq ▸ hl)
  obtain ⟨r, hr, rfl⟩ := List.mem_map.mp hrow
  have hlabel : IsLabel r.label.toList :=
    isLabel_of_readSource hrows (by rwa [hwrows] at hr) hnonempty
  obtain ⟨hn, ho⟩ := Draft.number?_of_addRows hd hr hnonempty
  have hsource {v : Workspace} := ofSource_withJump_eq_ok_iff hw hne hblanks hgap hlabel (v := v)
  constructor
  · intro hreferable
    obtain ⟨v', hv⟩ := ha.exists_jumps hd (by rwa [hwrows]) hlabel hn ho hl hreferable
    have hone := congrArg List.length (Operand.isReferable_eq_true_iff.mp hreferable).1
    refine ⟨_, v', hsource.mpr ⟨?_, rfl⟩, hv⟩
    rw [hone]
    exact Nat.le_add_left 1 2
  · rintro ⟨v, v', hv, hjumps⟩
    obtain ⟨-, rfl⟩ := hsource.mp hv
    exact ha.isReferable_of_jumps hl hjumps

theorem ofSource_of_readSource {source : String} {rows : List Row}
    (h : readSource source = .ok rows) (memory : Memory) (base : Int) :
    ofSource memory base source = .ok { memory, base, rows } := by
  rw [ofSource, h]
  rfl

/-- A program that assembles. -/
def loop : Workspace where
  rows := [⟨"LOOP", "NOP", []⟩, ⟨"", "JUMP", ["LOOP"]⟩]

theorem isReferable_loop :
    ofSource ∅ 0 "LOOP nop\n JUMP LOOP" = .ok loop ∧ "LOOP" ∈ loop.assemble.2.labels ∧
      ∃ v v', ofSource ∅ 0 (withJump "LOOP nop\n JUMP LOOP" [' '] '\t' "LOOP") = .ok v ∧
        Jumps loop.assemble.2 v v' (loop.poolAddress + 1) "LOOP" := by
  have hsource : ofSource ∅ 0 "LOOP nop\n JUMP LOOP" = .ok loop :=
    ofSource_of_readSource (by decide +kernel) ∅ 0
  have hl : "LOOP" ∈ loop.assemble.2.labels := by decide +kernel
  have hok : loop.assemble.1.isOk = true := by decide +kernel
  refine ⟨hsource, hl, ?_⟩
  cases hr : loop.assemble.1 with
  | error f =>
    rw [hr] at hok
    cases hok
  | ok map =>
    refine (isReferable_iff hsource (Prod.ext hr rfl) (by decide) hl (List.cons_ne_nil _ _) ?_
      ?_).mp (by decide +kernel)
    · intro c hc
      obtain rfl := List.mem_singleton.mp hc
      exact ⟨rfl, by decide⟩
    · exact ⟨rfl, by decide⟩

/-- A program whose labels are spelled like a register in lower case and like a literal. -/
def misleadingLabels : Workspace where
  rows := [⟨"gr1", "NOP", []⟩, ⟨"=5", "RET", []⟩]

/-- To jump to the first of these labels is refused, and a jump to the second one goes to the word
of a literal. -/
theorem misread_misleadingLabels :
    ofSource ∅ 0 "gr1 NOP\n=5 RET" = .ok misleadingLabels ∧
      misleadingLabels.assemble.1.isOk = true ∧
      misleadingLabels.assemble.2.labels["gr1"]? = some 0 ∧
      misleadingLabels.assemble.2.labels["=5"]? = some 1 ∧
      (∃ v, ofSource ∅ 0 (withJump "gr1 NOP\n=5 RET" [' '] ' ' "gr1") = .ok v ∧
        v.assemble.1.isOk = false) ∧
      ∃ v, ofSource ∅ 0 (withJump "gr1 NOP\n=5 RET" [' '] ' ' "=5") = .ok v ∧
        v.assemble.1.isOk = true ∧ v.assemble.2.memory.get? 3 = some 4 := by
  refine ⟨ofSource_of_readSource (by decide +kernel) ∅ 0, by decide +kernel, by decide +kernel,
    by decide +kernel, ⟨misleadingLabels.snoc ⟨"", "JUMP", ["GR1"]⟩, ?_, by decide +kernel⟩,
    misleadingLabels.snoc ⟨"", "JUMP", ["=5"]⟩, ?_, by decide +kernel, by decide +kernel⟩
  · exact ofSource_of_readSource (by decide +kernel) ∅ 0
  · exact ofSource_of_readSource (by decide +kernel) ∅ 0

end Workspace

end WordMachine
