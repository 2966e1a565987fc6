import WordMachine.Proofs.UpperCase

/-!
# The fields of a row

What a line can put into the fields of a row: each field that is not empty is a label as to its
characters, and only the last one may leave quotes open. Mnemonics and registers are in upper case.

## Main definitions

* `Row.Regular`: what holds of the fields of a row that was read

## Main results

* `Text.exists_of_mem_splitOutside`: where a piece of a text stands in it
* `Row.regular_of_readSource`: the rows of a program are regular
-/

namespace WordMachine

namespace Text

variable {p r : Char → Bool} {cs piece : List Char}

/-! ## Pieces of a text -/

/-- A piece of a text begins outside quotes, and ends outside quotes or with the text. -/
theorem exists_of_mem_splitOutside (h : piece ∈ splitOutside p false cs) :
    ∃ before behind, cs = before ++ piece ++ behind ∧ quotedAfter false before = false ∧
      Solid p false piece ∧ (behind = [] ∨ quotedAfter false piece = false) := by
  generalize hps : splitOutside p false cs = ps at h
  induction ps generalizing cs with
  | nil => cases h
  | cons first rest ih =>
    obtain ⟨hs, hend⟩ := splitOutside_cases hps
    rcases List.mem_cons.mp h with rfl | h
    · rcases hend with ⟨rfl, -⟩ | ⟨c, ys, -, -, hq, rfl, -⟩
      · exact ⟨[], [], by simp, rfl, hs, .inl rfl⟩
      · exact ⟨[], c :: ys, rfl, rfl, hs, .inr hq⟩
    · -- a later piece stands in what follows the first separator
      rcases hend with ⟨-, rfl⟩ | ⟨c, ys, hc, -, hq, rfl, hrest⟩
      · cases h
      · obtain ⟨before, behind, rfl, hbefore, hsolid, hbehind⟩ := ih hrest.symm h
        refine ⟨first ++ c :: before, behind, by simp, ?_, hsolid, hbehind⟩
        rwa [quotedAfter_append, hq, quotedAfter, if_neg hc]

/-- Only the last piece of a text may end inside quotes. -/
theorem pairwise_splitOutside (p : Char → Bool) (cs : List Char) :
    (splitOutside p false cs).Pairwise fun first _ => quotedAfter false first = false := by
  generalize hps : splitOutside p false cs = ps
  induction ps generalizing cs with
  | nil => exact .nil
  | cons first rest ih =>
    obtain ⟨-, ⟨-, rfl⟩ | ⟨c, ys, -, -, hq, -, hrest⟩⟩ := splitOutside_cases hps
    · exact List.pairwise_singleton _ _
    · exact .cons (fun _ _ => hq) (ih ys hrest.symm)

/-- What has no separator of another kind outside quotes has none in its pieces. -/
theorem Solid.of_mem_splitOutside (hr : Solid r false cs) (h : piece ∈ splitOutside p false cs) :
    Solid r false piece := by
  obtain ⟨before, behind, rfl, hbefore, -, -⟩ := exists_of_mem_splitOutside h
  rw [solid_append_iff, solid_append_iff, hbefore] at hr
  exact hr.1.2

theorem trimEnd_of_append {xs ys : List Char} (h : trimEnd (xs ++ ys) = xs ++ ys) :
    trimEnd ys = ys := by
  rw [trimEnd_eq_self_iff] at h ⊢
  intro hne
  have hlast := h (List.append_ne_nil_of_right_ne_nil _ hne)
  rwa [List.getLast_append_of_ne_nil _ hne] at hlast

end Text

/-- A piece of a line is a label if it has no blank outside quotes. -/
theorem isLabel_of_mem_splitOutside {p : Char → Bool} {text piece : List Char}
    (hline : '\n' ∉ text) (hcomment : Text.Solid (· == ';') false text)
    (hends : Text.trimEnd text = text) (h : piece ∈ Text.splitOutside p false text)
    (hne : piece ≠ []) (hfield : Text.Solid Text.isBlank false piece) : IsLabel piece := by
  have hpiece := hcomment.of_mem_splitOutside h
  obtain ⟨before, behind, rfl, -, -, hbehind⟩ := Text.exists_of_mem_splitOutside h
  refine ⟨hne, ?_, hpiece, hfield, ?_⟩
  · exact fun hm => hline (List.mem_append_left _ (List.mem_append_right _ hm))
  · -- the last piece ends as the line does, and every other one ends outside quotes
    rcases hbehind with rfl | hclosed
    · rw [List.append_nil] at hends
      exact Text.trimEnd_of_append hends
    · exact Text.trimEnd_of_closed hfield hclosed

/-! ## The fields of a line -/

section Line

variable {text : List Char} (hline : '\n' ∉ text) (hcomment : Text.Solid (· == ';') false text)
  (hends : Text.trimEnd text = text)

include hline hcomment hends in
theorem isLabel_of_mem_splitFields {f : String} (h : f ∈ splitFields text) : IsLabel f.toList := by
  obtain ⟨piece, hpiece, rfl⟩ := List.mem_map.mp h
  obtain ⟨hpiece, hne⟩ := List.mem_filter.mp hpiece
  rw [String.toList_ofList]
  obtain ⟨-, -, -, -, hfield, -⟩ := Text.exists_of_mem_splitOutside hpiece
  exact isLabel_of_mem_splitOutside hline hcomment hends hpiece (by simpa using hne) hfield

/-- Only the last field of a line may end inside quotes. -/
theorem pairwise_splitFields (text : List Char) :
    (splitFields text).Pairwise fun f _ => Text.quotedAfter false f.toList = false := by
  rw [splitFields, List.pairwise_map]
  simp only [String.toList_ofList]
  exact (Text.pairwise_splitOutside Text.isBlank text).filter _

/-- A line without fields is blank. -/
theorem isBlank_of_splitFields_eq_nil (h : splitFields text = []) :
    ∀ c ∈ text, Text.isBlank c = true := by
  induction text with
  | nil => nofun
  | cons c cs ih =>
    cases hc : Text.isBlank c with
    | true =>
      have hcs : splitFields cs = [] := by
        rw [← h, ← List.singleton_append (l := cs)]
        exact (splitFields_of_blanks (by simpa using hc) cs).symm
      rw [List.forall_mem_cons]
      exact ⟨hc, ih hcs⟩
    | false =>
      cases hp : Text.splitOutside Text.isBlank false (c :: cs) with
      | nil => exact absurd hp (Text.splitOutside_ne_nil _ _ _)
      | cons piece rest =>
        have hne := Text.ne_nil_of_splitOutside_eq_cons hc hp
        rw [splitFields, hp, List.filter_cons_of_pos (by simpa using hne)] at h
        cases h

include hends in
theorem splitFields_ne_nil (hne : text ≠ []) : splitFields text ≠ [] := by
  intro h
  have hblank := isBlank_of_splitFields_eq_nil h (text.getLast hne) (List.getLast_mem hne)
  exact Text.trimEnd_eq_self_iff.mp hends hne hblank

end Line

/-! ## Operands -/

theorem normalOperand_cases (o : String) :
    normalOperand o = Text.upper o ∨ normalOperand o = o := by
  unfold normalOperand
  split
  · exact .inl rfl
  · exact .inr rfl

@[simp] theorem normalOperand_normalOperand (o : String) :
    normalOperand (normalOperand o) = normalOperand o := by
  by_cases h : namesRegister o = true
  · have hupper : normalOperand o = Text.upper o := if_pos h
    rw [hupper]
    rcases normalOperand_cases (Text.upper o) with hu | hu
    · rw [hu, Text.upper_upper]
    · exact hu
  · have hsame : normalOperand o = o := if_neg h
    rw [hsame, hsame]

theorem normalOperand_eq_empty_iff {o : String} : normalOperand o = "" ↔ o = "" := by
  rcases normalOperand_cases o with h | h <;> rw [h]
  exact Text.upper_eq_empty_iff

@[simp] theorem quotedAfter_normalOperand (o : String) :
    Text.quotedAfter false (normalOperand o).toList = Text.quotedAfter false o.toList := by
  rcases normalOperand_cases o with h | h <;> rw [h]
  rw [Text.upper, String.toList_ofList, Text.quotedAfter_upper]

theorem IsLabel.normalOperand {o : String} (h : IsLabel o.toList) :
    IsLabel (normalOperand o).toList := by
  rcases normalOperand_cases o with hn | hn <;> rw [hn]
  · exact h.upper
  · exact h

theorem solid_normalOperand {p : Char → Bool} (hp : ∀ c, p c = true → Text.IsMark c) {o : String}
    (h : Text.Solid p false o.toList) : Text.Solid p false (normalOperand o).toList := by
  rcases normalOperand_cases o with hn | hn <;> rw [hn]
  · rw [Text.upper, String.toList_ofList]
    exact h.upper hp
  · exact h

theorem isLabel_of_mem_splitOperands {field o : String} (hf : IsLabel field.toList)
    (ho : o ∈ splitOperands field) (hne : o ≠ "") :
    IsLabel o.toList ∧ Text.Solid (· == ',') false o.toList := by
  obtain ⟨piece, hpiece, rfl⟩ := List.mem_map.mp ho
  have hne : piece ≠ [] := by
    rintro rfl
    exact hne rfl
  rw [String.toList_ofList]
  obtain ⟨-, -, -, -, hsolid, -⟩ := Text.exists_of_mem_splitOutside hpiece
  exact ⟨isLabel_of_mem_splitOutside hf.newline hf.comment hf.ends hpiece hne
    (hf.field.of_mem_splitOutside hpiece), hsolid⟩

/-- Only the last operand may end inside quotes. -/
theorem pairwise_splitOperands (field : String) :
    (splitOperands field).Pairwise fun o _ => Text.quotedAfter false o.toList = false := by
  rw [splitOperands, List.pairwise_map]
  simp only [String.toList_ofList]
  exact Text.pairwise_splitOutside _ field.toList

/-! ## Rows -/

namespace Row

/-- What holds of the fields of a row that was read. -/
structure Regular (r : Row) : Prop where
  /-- The label is a label. -/
  label : r.label ≠ "" → IsLabel r.label.toList
  /-- So is the mnemonic, as to its characters. -/
  mnemonic : r.mnemonic ≠ "" → IsLabel r.mnemonic.toList
  /-- So is an operand, and no comma stands in it outside quotes. -/
  operand : ∀ o ∈ r.operands, o ≠ "" → IsLabel o.toList ∧ Text.Solid (· == ',') false o.toList
  /-- Only the last field that is not empty may end inside quotes. -/
  closed : (r.label :: r.mnemonic :: r.operands).Pairwise fun f g =>
    g ≠ "" → Text.quotedAfter false f.toList = false
  /-- The mnemonic is in upper case. -/
  upper : Text.upper r.mnemonic = r.mnemonic
  /-- Registers are in upper case. -/
  normal : ∀ o ∈ r.operands, normalOperand o = o
  /-- A row without a mnemonic has a label and nothing else. -/
  named : r.mnemonic = "" → r.label ≠ "" ∧ r.operands = []
  /-- There is room for the operands. -/
  count : r.operands.length ≤ maxOperands

end Row

section RowOfFields

variable {label mnemonic field : String} {fields : List String}

theorem regular_of_label (hlabel : IsLabel label.toList) : (rowOfFields label []).Regular where
  label _ := hlabel
  mnemonic h := absurd rfl h
  operand := nofun
  closed := by simp [rowOfFields]
  upper := Text.upper_eq_empty_iff.mpr rfl
  normal := nofun
  named _ := by
    refine ⟨?_, rfl⟩
    rintro rfl
    exact hlabel.ne_nil rfl
  count := Nat.zero_le _

theorem upper_ne_empty (h : IsLabel mnemonic.toList) : Text.upper mnemonic ≠ "" := by
  rw [Ne, Text.upper_eq_empty_iff]
  rintro rfl
  exact h.ne_nil rfl

theorem regular_of_mnemonic (hlabel : label ≠ "" → IsLabel label.toList)
    (hclosed : Text.quotedAfter false label.toList = false) (hm : IsLabel mnemonic.toList) :
    (rowOfFields label [mnemonic]).Regular where
  label := hlabel
  mnemonic _ := hm.upper
  operand := nofun
  closed := by simp [rowOfFields, hclosed]
  upper := Text.upper_upper mnemonic
  normal := nofun
  named h := absurd h (upper_ne_empty hm)
  count := Nat.zero_le _

theorem regular_of_field (hlabel : label ≠ "" → IsLabel label.toList)
    (hclosed : Text.quotedAfter false label.toList = false) (hm : IsLabel mnemonic.toList)
    (hmclosed : Text.quotedAfter false mnemonic.toList = false) (hf : IsLabel field.toList)
    (hcount : (splitOperands field).length ≤ maxOperands) :
    (rowOfFields label (mnemonic :: field :: fields)).Regular where
  label := hlabel
  mnemonic _ := hm.upper
  operand o ho hne := by
    obtain ⟨x, hx, rfl⟩ := List.mem_map.mp ho
    have hne : x ≠ "" := fun h => hne (normalOperand_eq_empty_iff.mpr h)
    obtain ⟨hx, hsolid⟩ := isLabel_of_mem_splitOperands hf hx hne
    refine ⟨hx.normalOperand, solid_normalOperand ?_ hsolid⟩
    intro c hc
    rw [eq_of_beq hc]
    exact Text.isMark_comma
  closed := by
    have hmclosed : Text.quotedAfter false (Text.upper mnemonic).toList = false := by
      rwa [Text.upper, String.toList_ofList, Text.quotedAfter_upper]
    refine .cons (fun _ _ _ => hclosed) (.cons (fun _ _ _ => hmclosed) ?_)
    rw [rowOfFields, List.pairwise_map]
    simp only [quotedAfter_normalOperand]
    refine (pairwise_splitOperands field).imp ?_
    intro _ _ h _
    exact h
  upper := Text.upper_upper mnemonic
  normal o ho := by
    obtain ⟨x, -, rfl⟩ := List.mem_map.mp ho
    exact normalOperand_normalOperand x
  named h := absurd h (upper_ne_empty hm)
  count := by
    rw [rowOfFields, List.length_map]
    exact hcount

theorem regular_rowOfFields (hlabel : label ≠ "" → IsLabel label.toList)
    (hfields : ∀ f ∈ fields, IsLabel f.toList)
    (hclosed : (label :: fields).Pairwise fun f _ => Text.quotedAfter false f.toList = false)
    (hsome : fields = [] → label ≠ "")
    (hcount : (rowOfFields label fields).operands.length ≤ maxOperands) :
    (rowOfFields label fields).Regular := by
  rcases fields with _ | ⟨mnemonic, _ | ⟨field, fields⟩⟩
  · exact regular_of_label (hlabel (hsome rfl))
  · have hfirst := List.rel_of_pairwise_cons hclosed List.mem_cons_self
    exact regular_of_mnemonic hlabel hfirst (hfields mnemonic List.mem_cons_self)
  · rw [rowOfFields, List.length_map] at hcount
    have hfirst := List.rel_of_pairwise_cons hclosed List.mem_cons_self
    have hsecond := List.rel_of_pairwise_cons hclosed.of_cons List.mem_cons_self
    exact regular_of_field hlabel hfirst (hfields mnemonic List.mem_cons_self) hsecond
      (hfields field (List.mem_cons_of_mem _ List.mem_cons_self)) hcount

end RowOfFields

/-- The row of a line is regular. -/
theorem regular_of_readStatement {line : String} {number : Int} {row : Row}
    (hline : '\n' ∉ line.toList) (h : readStatement line number = .ok (some row)) :
    row.Regular := by
  obtain ⟨hcomment, hfront⟩ := withoutComment_spec line.toList
  have hcut := Text.trimEnd_prefix (withoutComment line.toList)
  have hends := Text.trimEnd_trimEnd (withoutComment line.toList)
  unfold readStatement at h
  generalize Text.trimEnd (withoutComment line.toList) = text at h hcut hends
  have hline : '\n' ∉ text := fun hm => hline ((hcut.trans hfront).subset hm)
  have hcomment : Text.Solid (· == ';') false text := by
    obtain ⟨behind, hsplit⟩ := hcut
    rw [← hsplit, Text.solid_append_iff] at hcomment
    exact hcomment.1
  cases text with
  | nil => cases h
  | cons c cs =>
    have hlabel {f : String} (hf : f ∈ splitFields (c :: cs)) : IsLabel f.toList :=
      isLabel_of_mem_splitFields hline hcomment hends hf
    have hclosed := pairwise_splitFields (c :: cs)
    have hsome := splitFields_ne_nil hends (List.cons_ne_nil c cs)
    dsimp only at h
    split at h
    · -- a line that starts with a blank has no label
      split at h
      · next hcount =>
        obtain rfl := Option.some.inj (Except.ok.inj h)
        exact regular_rowOfFields (fun hne => absurd rfl hne) (fun f hf => hlabel hf)
          (.cons (fun _ _ => rfl) hclosed) (fun hnil => absurd hnil hsome) hcount
      · cases h
    · -- else the label is the first field
      cases hf : splitFields (c :: cs) with
      | nil => exact absurd hf hsome
      | cons label fields =>
        rw [hf] at hlabel hclosed h
        have hfirst : IsLabel label.toList := hlabel List.mem_cons_self
        dsimp only at h
        split at h
        · next hcount =>
          obtain rfl := Option.some.inj (Except.ok.inj h)
          refine regular_rowOfFields (fun _ => hfirst)
            (fun f hf => hlabel (List.mem_cons_of_mem _ hf)) hclosed ?_ hcount
          rintro - rfl
          exact hfirst.ne_nil rfl
        · cases h

/-- The rows of a program are regular. -/
theorem Row.regular_of_readSource {source : String} {rows : List Row} {r : Row}
    (h : readSource source = .ok rows) (hr : r ∈ rows) : r.Regular := by
  obtain ⟨line, hline, n, hrow⟩ := exists_of_readLines h hr
  obtain ⟨cs, hcs, rfl⟩ := List.mem_map.mp hline
  refine regular_of_readStatement ?_ hrow
  intro hm
  rw [String.toList_ofList] at hm
  cases Text.not_of_mem_splitOn hcs _ hm

/-- The labels of a program are labels. -/
theorem isLabel_of_readSource {source : String} {rows : List Row} {r : Row}
    (h : readSource source = .ok rows) (hr : r ∈ rows) (hl : r.label ≠ "") :
    IsLabel r.label.toList :=
  (Row.regular_of_readSource h hr).label hl

end WordMachine
