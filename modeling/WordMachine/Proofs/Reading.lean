import WordMachine.Proofs.Printing

/-!
# Lines made of fields

A line is a label, a mnemonic and an operand field with blanks between them, and behind the operand
field anything may follow that a blank or a semicolon parts from it. If the quotes of each field are
closed, the line is read as these fields, whatever the blanks are and whatever follows: an
apostrophe in a remark opens quotes only behind the operand field, where nothing is read any more.

## Main definitions

* `Text.OnlyQuoted`, `Text.Closed`: where characters of a kind stand, by the apostrophes before them
* `Text.countOutside`: how many characters of a kind stand outside quotes
* `IsField`, `IsGap`, `IsTrailer`: the parts of a line
* `AreOperands`: the operands of an operand field

## Main results

* `Text.solid_iff_onlyQuoted`, `Text.length_splitOutside_eq`: quotes and pieces by counting
  apostrophes
* `areOperands_splitOperands`: an operand field is cut into its operands
* `readStatement_fieldLine`: a line is read as its fields
-/

namespace WordMachine

namespace Text

variable {p : Char → Bool} {q : Bool} {cs xs : List Char}

/-! ## Quotes by the number of apostrophes -/

/-- Characters of a kind stand in a text only inside quotes: the apostrophes before each of them are
odd in number. -/
def OnlyQuoted (p : Char → Bool) (cs : List Char) : Prop :=
  ∀ before c after, cs = before ++ c :: after → p c = true → Odd (before.count '\'')

/-- The quotes in a text are closed: its apostrophes are even in number. -/
def Closed (cs : List Char) : Prop :=
  Even (cs.count '\'')

/-- The number of characters of a kind that stand outside quotes: the apostrophes before each of
them are even in number. -/
def countOutside (p : Char → Bool) (cs : List Char) : Nat :=
  cs.zipIdx.countP fun x => p x.1 && decide (Even ((cs.take x.2).count '\''))

/-- Each apostrophe turns the quotes. -/
theorem quotedAfter_eq (q : Bool) (cs : List Char) :
    quotedAfter q cs = (q ^^ decide (Odd (cs.count '\''))) := by
  induction cs generalizing q with
  | nil => simp [quotedAfter]
  | cons c cs ih =>
    rw [quotedAfter, ih]
    by_cases hc : c = '\''
    · subst hc
      rw [if_pos rfl, List.count_cons_self, decide_eq_decide.mpr Nat.odd_add_one, decide_not,
        Bool.not_xor, Bool.xor_not]
    · rw [if_neg hc, List.count_cons_of_ne hc]

theorem quotedAfter_false_eq_true_iff :
    quotedAfter false cs = true ↔ Odd (cs.count '\'') := by
  rw [quotedAfter_eq, Bool.false_xor, decide_eq_true_iff]

theorem quotedAfter_false_eq_false_iff : quotedAfter false cs = false ↔ Closed cs := by
  rw [quotedAfter_eq, Bool.false_xor, decide_eq_false_iff_not, Nat.not_odd_iff_even, Closed]

/-- A text is solid if quotes are open wherever a separator stands. -/
theorem solid_iff_forall (hp : p '\'' = false) :
    Solid p q cs ↔
      ∀ before c after, cs = before ++ c :: after → p c = true → quotedAfter q before = true := by
  have hne {c : Char} (hc : p c = true) : c ≠ '\'' := by
    rintro rfl
    cases hp.symm.trans hc
  constructor
  · rintro h before c after rfl hc
    rw [solid_append_iff, solid_cons_iff (hne hc)] at h
    exact h.2.1 hc
  · intro h
    induction cs generalizing q with
    | nil => exact solid_nil
    | cons c cs ih =>
      -- what stands before a later separator begins with this character
      have hrest : ∀ before d after, cs = before ++ d :: after → p d = true →
          quotedAfter (if c = '\'' then !q else q) before = true := by
        rintro before d after rfl hd
        exact h (c :: before) d after rfl hd
      by_cases hc : c = '\''
      · subst hc
        exact solid_quote_iff.mpr (ih hrest)
      · rw [if_neg hc] at hrest
        exact (solid_cons_iff hc).mpr ⟨h [] c cs rfl, ih hrest⟩

theorem solid_iff_onlyQuoted (hp : p '\'' = false) : Solid p false cs ↔ OnlyQuoted p cs := by
  rw [solid_iff_forall hp]
  simp only [quotedAfter_false_eq_true_iff, OnlyQuoted]

/-- The separators of a text that stand where no quotes are open part its pieces. -/
theorem length_splitOutside_eq_countP (hp : p '\'' = false) (q : Bool) (cs : List Char) :
    (splitOutside p q cs).length =
      (cs.zipIdx.countP fun x => p x.1 && !quotedAfter q (cs.take x.2)) + 1 := by
  induction cs generalizing q with
  | nil => rfl
  | cons c cs ih =>
    -- the places behind the first character are those of the other characters
    have hrest (q' : Bool) (hq : ∀ i, quotedAfter q ((c :: cs).take (i + 1)) =
        quotedAfter q' (cs.take i)) :
        ((c :: cs).zipIdx.countP fun x => p x.1 && !quotedAfter q ((c :: cs).take x.2)) =
          (cs.zipIdx.countP fun x => p x.1 && !quotedAfter q' (cs.take x.2)) +
            if (p c && !q) = true then 1 else 0 := by
      rw [List.zipIdx_cons, List.countP_cons, List.zipIdx_succ, List.countP_map]
      simp only [Function.comp_def, hq, List.take_zero, quotedAfter]
    rw [splitOutside]
    by_cases hc : c = '\''
    · subst hc
      rw [if_pos rfl, (length_consHead (splitOutside_ne_nil _ _ _) _).2, ih, hrest (!q) fun i => rfl,
        hp, Bool.false_and, if_neg Bool.false_ne_true, Nat.add_zero]
    · have hq : ∀ i, quotedAfter q ((c :: cs).take (i + 1)) = quotedAfter q (cs.take i) := by
        intro i
        rw [List.take_succ_cons, quotedAfter, if_neg hc]
      rw [if_neg hc, hrest q hq]
      split
      · rw [List.length_cons, ih]
      · rw [(length_consHead (splitOutside_ne_nil _ _ _) _).2, ih, Nat.add_zero]

/-- There is one piece more than there are separators outside quotes. -/
theorem length_splitOutside_eq (hp : p '\'' = false) (cs : List Char) :
    (splitOutside p false cs).length = countOutside p cs + 1 := by
  rw [length_splitOutside_eq_countP hp, countOutside]
  simp only [quotedAfter_eq, Bool.false_xor, ← decide_not, Nat.not_odd_iff_even]

/-- The pieces between characters of one kind, joined by this character, are the text. -/
theorem intercalate_splitOutside (c : Char) (q : Bool) (cs : List Char) :
    [c].intercalate (splitOutside (· == c) q cs) = cs := by
  induction cs generalizing q with
  | nil => rfl
  | cons d cs ih =>
    have hcons (q : Bool) :
        [c].intercalate (consHead d (splitOutside (· == c) q cs)) = d :: cs := by
      have hjoined := ih q
      cases hps : splitOutside (· == c) q cs with
      | nil => exact absurd hps (splitOutside_ne_nil _ _ _)
      | cons piece pieces =>
        rw [hps] at hjoined
        rw [consHead, ← hjoined]
        cases pieces with
        | nil => rfl
        | cons piece' pieces => rw [List.intercalate_cons_cons, List.intercalate_cons_cons]; rfl
    rw [splitOutside]
    split
    · exact hcons _
    · split
      · next hsep =>
        rw [Bool.and_eq_true, beq_iff_eq] at hsep
        rw [List.intercalate_cons_of_ne_nil (splitOutside_ne_nil _ _ _), ih, hsep.1]
        rfl
      · exact hcons _

theorem headD_consHead (c : Char) (pieces : List (List Char)) :
    (consHead c pieces).headD [] = c :: pieces.headD [] := by
  cases pieces <;> rfl

/-- A solid text belongs to the first piece. -/
theorem headD_splitOutside_append (hs : Solid p q xs) (cs : List Char) :
    (splitOutside p q (xs ++ cs)).headD [] =
      xs ++ (splitOutside p (quotedAfter q xs) cs).headD [] := by
  induction xs generalizing q with
  | nil => rfl
  | cons x xs ih =>
    rw [List.cons_append, splitOutside, quotedAfter]
    by_cases hx : x = '\''
    · subst hx
      rw [if_pos rfl, if_pos rfl, headD_consHead, ih (solid_quote_iff.mp hs), List.cons_append]
    · rw [solid_cons_iff hx] at hs
      have hsep : ¬(p x && !q) = true := by
        simpa [Bool.and_eq_true] using hs.1
      rw [if_neg hx, if_neg hx, if_neg hsep, headD_consHead, ih hs.2, List.cons_append]

/-- The pieces of a text whose quotes are closed have closed quotes. -/
theorem quotedAfter_of_mem_splitOutside {piece : List Char} (h : piece ∈ splitOutside p false cs)
    (hq : quotedAfter false cs = false) : quotedAfter false piece = false := by
  obtain ⟨before, behind, rfl, hbefore, -, rfl | hpiece⟩ := exists_of_mem_splitOutside h
  · rwa [List.append_nil, quotedAfter_append, hbefore] at hq
  · exact hpiece

/-- Blanks are cut behind a text that does not end in one, and only there. -/
theorem trimEnd_append_of_trimEnd (h : trimEnd xs = xs) (cs : List Char) :
    trimEnd (xs ++ cs) = xs ++ trimEnd cs := by
  induction cs using List.reverseRecOn with
  | nil => rw [List.append_nil, h, trimEnd_nil, List.append_nil]
  | append_singleton cs c ih =>
    rw [← List.append_assoc]
    cases hc : isBlank c with
    | true => rw [trimEnd_append_blank _ hc, trimEnd_append_blank _ hc, ih]
    | false =>
      rw [trimEnd_append_of_not_isBlank _ hc, trimEnd_append_of_not_isBlank _ hc,
        List.append_assoc]

end Text

/-! ## The operands of a field -/

/-- The operands of an operand field: commas join them to the field, no comma stands in them outside
quotes, and their quotes are closed. -/
structure AreOperands (field : String) (operands : List String) : Prop where
  joined : ",".intercalate operands = field
  count : operands.length = Text.countOutside (· == ',') field.toList + 1
  comma : ∀ o ∈ operands, Text.OnlyQuoted (· == ',') o.toList
  closed : ∀ o ∈ operands, Text.Closed o.toList

/-- Commas join the operands of a field to the field. -/
theorem intercalate_splitOperands (field : String) :
    ",".intercalate (splitOperands field) = field := by
  rw [← String.toList_inj, String.toList_intercalate, splitOperands, List.map_map]
  simp only [Function.comp_def, String.toList_ofList, List.map_id']
  exact Text.intercalate_splitOutside ',' false field.toList

theorem onlyQuoted_of_mem_splitOperands {field o : String} (ho : o ∈ splitOperands field) :
    Text.OnlyQuoted (· == ',') o.toList := by
  obtain ⟨piece, hpiece, rfl⟩ := List.mem_map.mp ho
  obtain ⟨-, -, -, -, hsolid, -⟩ := Text.exists_of_mem_splitOutside hpiece
  rw [String.toList_ofList]
  exact (Text.solid_iff_onlyQuoted rfl).mp hsolid

theorem areOperands_splitOperands {field : String} (h : Text.Closed field.toList) :
    AreOperands field (splitOperands field) where
  joined := intercalate_splitOperands field
  count := by rw [splitOperands, List.length_map, Text.length_splitOutside_eq rfl]
  comma := fun _ => onlyQuoted_of_mem_splitOperands
  closed := by
    intro o ho
    obtain ⟨piece, hpiece, rfl⟩ := List.mem_map.mp ho
    rw [String.toList_ofList, ← Text.quotedAfter_false_eq_false_iff]
    exact Text.quotedAfter_of_mem_splitOutside hpiece (Text.quotedAfter_false_eq_false_iff.mpr h)

/-! ## The parts of a line -/

/-- A field of a line: it is not empty, blanks and semicolons stand in it only inside quotes, and
its quotes are closed. -/
structure IsField (s : String) : Prop where
  ne_empty : s ≠ ""
  blank : Text.OnlyQuoted Text.isBlank s.toList
  semicolon : Text.OnlyQuoted (· == ';') s.toList
  closed : Text.Closed s.toList

theorem isField_iff {s : String} : IsField s ↔ s ≠ "" ∧
    Text.splitOutside Text.isBlank false s.toList = [s.toList] ∧
    Text.splitOutside (· == ';') false s.toList = [s.toList] ∧ Even (s.toList.count '\'') := by
  constructor
  · rintro ⟨hne, hblank, hsemicolon, hclosed⟩
    exact ⟨hne, (Text.solid_iff_onlyQuoted rfl).mpr hblank,
      (Text.solid_iff_onlyQuoted rfl).mpr hsemicolon, hclosed⟩
  · rintro ⟨hne, hblank, hsemicolon, hclosed⟩
    exact ⟨hne, (Text.solid_iff_onlyQuoted rfl).mp hblank,
      (Text.solid_iff_onlyQuoted rfl).mp hsemicolon, hclosed⟩

instance : DecidablePred IsField := fun _ => decidable_of_iff _ isField_iff.symm

/-- What parts two fields of a line: blanks, at least one. -/
@[mk_iff]
structure IsGap (s : String) : Prop where
  ne_empty : s ≠ ""
  blank : ∀ c ∈ s.toList, Text.isBlank c = true

instance : DecidablePred IsGap := fun s =>
  decidable_of_iff (s ≠ "" ∧ s.toList.all Text.isBlank = true) (by rw [List.all_eq_true, isGap_iff])

/-- What may follow the operand field of a line. -/
inductive IsTrailer : String → Prop
  /-- Nothing. -/
  | nothing : IsTrailer ""
  /-- A comment. -/
  | comment (text : List Char) : IsTrailer (String.ofList (';' :: text))
  /-- A blank, and any text. -/
  | remark {c : Char} (hc : Text.isBlank c = true) (text : List Char) :
    IsTrailer (String.ofList (c :: text))

/-- A text that is read up to the quotes at its end: it has no comment, and no quotes are open
behind it. -/
structure IsFront (cs : List Char) : Prop where
  comment : Text.Solid (· == ';') false cs
  closed : Text.quotedAfter false cs = false

theorem IsFront.append {xs ys : List Char} (h : IsFront xs) (h' : IsFront ys) :
    IsFront (xs ++ ys) where
  comment := by
    rw [Text.solid_append_iff, h.closed]
    exact ⟨h.comment, h'.comment⟩
  closed := by rw [Text.quotedAfter_append, h.closed, h'.closed]

/-- A comment behind a text whose quotes are closed is cut as it stands. -/
theorem IsFront.withoutComment_append {xs : List Char} (h : IsFront xs) (ys : List Char) :
    withoutComment (xs ++ ys) = xs ++ withoutComment ys := by
  rw [withoutComment, Text.headD_splitOutside_append h.comment, h.closed]
  rfl

theorem isFront_of_blanks {blanks : List Char} (h : ∀ c ∈ blanks, Text.isBlank c = true) :
    IsFront blanks := by
  obtain ⟨hs, hq⟩ := Text.solid_of_plain (p := (· == ';')) (q := false) fun c hc =>
    ne_of_isBlank (h c hc)
  exact ⟨hs, hq⟩

theorem IsField.isFront {s : String} (h : IsField s) : IsFront s.toList :=
  ⟨(Text.solid_iff_onlyQuoted rfl).mpr h.semicolon, Text.quotedAfter_false_eq_false_iff.mpr h.closed⟩

theorem IsGap.isFront {s : String} (h : IsGap s) : IsFront s.toList :=
  isFront_of_blanks h.blank

theorem IsGap.exists_cons {s : String} (h : IsGap s) :
    ∃ c cs, s.toList = c :: cs ∧ Text.isBlank c = true ∧ ∀ d ∈ cs, Text.isBlank d = true := by
  obtain ⟨c, cs, hs⟩ := List.exists_cons_of_ne_nil (mt String.toList_eq_nil_iff.mp h.ne_empty)
  have hblank := h.blank
  rw [hs, List.forall_mem_cons] at hblank
  exact ⟨c, cs, hs, hblank.1, hblank.2⟩

namespace IsField

variable {s gap : String} (h : IsField s)
include h

theorem ne_nil : s.toList ≠ [] :=
  mt String.toList_eq_nil_iff.mp h.ne_empty

theorem field : Text.Solid Text.isBlank false s.toList :=
  (Text.solid_iff_onlyQuoted rfl).mpr h.blank

/-- A field before a gap is the first one, and the gap is skipped. -/
theorem splitFields_append_gap (hgap : IsGap gap) (cs : List Char) :
    splitFields (s.toList ++ (gap.toList ++ cs)) = s :: splitFields cs := by
  obtain ⟨c, blanks, hcons, hc, hblanks⟩ := hgap.exists_cons
  rw [hcons, List.cons_append, splitFields_append h.ne_nil h.field h.isFront.closed hc,
    splitFields_of_blanks hblanks]

end IsField

/-- Behind the fields at most a blank and more is left of a line when its comment and the blanks at
its end are cut. -/
theorem IsTrailer.cut {trailer : String} (h : IsTrailer trailer) :
    Text.trimEnd (withoutComment trailer.toList) = [] ∨
      ∃ c cs, Text.trimEnd (withoutComment trailer.toList) = c :: cs ∧ Text.isBlank c = true := by
  cases h with
  | nothing => exact .inl rfl
  | comment text =>
    have hcut : withoutComment (';' :: text) = [] := by
      simp [withoutComment, Text.splitOutside]
    rw [String.toList_ofList, hcut]
    exact .inl rfl
  | @remark c hc text =>
    have hfront : IsFront [c] := isFront_of_blanks (by simpa using hc)
    have hcut := hfront.withoutComment_append text
    rw [String.toList_ofList, ← List.singleton_append, hcut]
    -- what is left of it is a beginning of it
    have hprefix := Text.trimEnd_prefix ([c] ++ withoutComment text)
    generalize Text.trimEnd ([c] ++ withoutComment text) = rest at hprefix
    cases rest with
    | nil => exact .inl rfl
    | cons d rest =>
      obtain ⟨rfl, -⟩ := List.cons_prefix_cons.mp hprefix
      exact .inr ⟨d, rest, rfl, hc⟩

/-! ## Lines -/

/-- The row of a label or none, a mnemonic and an operand field. -/
def fieldRow (label : Option String) (mnemonic field : String) : Row where
  label := label.getD ""
  mnemonic := Text.upper mnemonic
  operands := (splitOperands field).map normalOperand

/-- A line with a label or none, a mnemonic and an operand field, with gaps and a trailer. -/
def fieldLine (label : Option String) (gap mnemonic gap' field trailer : String) : String :=
  label.getD "" ++ gap ++ mnemonic ++ gap' ++ field ++ trailer

section Line

variable {label : Option String} {gap mnemonic gap' field trailer : String}
  (hlabel : ∀ l ∈ label, IsField l) (hgap : IsGap gap) (hmnemonic : IsField mnemonic)
  (hgap' : IsGap gap') (hfield : IsField field) (htrailer : IsTrailer trailer)

include hfield htrailer in
/-- The operand field of a line is a field, whatever follows it. -/
theorem exists_splitFields_field :
    ∃ rest, splitFields (field.toList ++ Text.trimEnd (withoutComment trailer.toList)) =
      field :: rest := by
  rcases htrailer.cut with hcut | ⟨c, cs, hcut, hc⟩
  · refine ⟨[], ?_⟩
    rw [hcut, List.append_nil, splitFields_of_solid hfield.ne_nil hfield.field]
  · rw [hcut]
    exact ⟨_, splitFields_append hfield.ne_nil hfield.field hfield.isFront.closed hc cs⟩

include hgap hmnemonic hgap' hfield

/-- Comment and blanks are cut from a line behind its operand field. -/
theorem cut_fieldLine (hlabel : ∀ l ∈ label, IsField l) :
    Text.trimEnd (withoutComment (fieldLine label gap mnemonic gap' field trailer).toList) =
      (label.getD "").toList ++ (gap.toList ++ (mnemonic.toList ++ (gap'.toList ++
        (field.toList ++ Text.trimEnd (withoutComment trailer.toList))))) := by
  have hfirst : IsFront (label.getD "").toList := by
    cases label with
    | none => exact ⟨Text.solid_nil, rfl⟩
    | some l => exact (hlabel l rfl).isFront
  have hfront := hfirst.append (hgap.isFront.append (hmnemonic.isFront.append
    (hgap'.isFront.append hfield.isFront)))
  have hends : Text.trimEnd ((label.getD "").toList ++ (gap.toList ++ (mnemonic.toList ++
      (gap'.toList ++ field.toList)))) = (label.getD "").toList ++ (gap.toList ++
        (mnemonic.toList ++ (gap'.toList ++ field.toList))) := by
    simp only [← List.append_assoc]
    exact Text.trimEnd_append hfield.ne_nil
      (Text.trimEnd_of_closed hfield.field hfield.isFront.closed)
  have hline : (fieldLine label gap mnemonic gap' field trailer).toList =
      (label.getD "").toList ++ (gap.toList ++ (mnemonic.toList ++ (gap'.toList ++
        field.toList))) ++ trailer.toList := by
    simp only [fieldLine, String.toList_append, List.append_assoc]
  rw [hline, hfront.withoutComment_append, Text.trimEnd_append_of_trimEnd hends]
  simp only [List.append_assoc]

include htrailer

/-- What is left of a line starts with a blank just if there is no label, and its first fields are
those of the line. -/
theorem exists_cut_fieldLine (hlabel : ∀ l ∈ label, IsField l) :
    ∃ c cs rest, Text.trimEnd (withoutComment
        (fieldLine label gap mnemonic gap' field trailer).toList) = c :: cs ∧
      Text.isBlank c = label.isNone ∧
      splitFields (c :: cs) = label.toList ++ mnemonic :: field :: rest := by
  obtain ⟨rest, hrest⟩ := exists_splitFields_field hfield htrailer
  rw [cut_fieldLine hgap hmnemonic hgap' hfield hlabel]
  generalize Text.trimEnd (withoutComment trailer.toList) = tail at hrest
  have hfields : splitFields (mnemonic.toList ++ (gap'.toList ++ (field.toList ++ tail))) =
      mnemonic :: field :: rest := by
    rw [hmnemonic.splitFields_append_gap hgap', hrest]
  cases label with
  | none =>
    -- the gap in front is skipped
    have hskip := splitFields_of_blanks hgap.blank
      (mnemonic.toList ++ (gap'.toList ++ (field.toList ++ tail)))
    obtain ⟨c, blanks, hcons, hc, -⟩ := hgap.exists_cons
    rw [hcons, List.cons_append, hfields] at hskip
    rw [hcons]
    exact ⟨c, _, rest, rfl, hc, hskip⟩
  | some l =>
    have hl : IsField l := hlabel l rfl
    have hfirst := hl.splitFields_append_gap hgap
      (mnemonic.toList ++ (gap'.toList ++ (field.toList ++ tail)))
    obtain ⟨c, cs, hcons, hc⟩ := exists_cons_of_solid hl.ne_nil hl.field
    rw [hcons, List.cons_append, hfields] at hfirst
    rw [Option.getD_some, hcons]
    exact ⟨c, _, rest, rfl, hc, hfirst⟩

/-- **Reading a line.** A line is read as its label, its mnemonic in upper case, and its operands
with registers in upper case, or it is refused for more operands than three; the blanks in it and
what follows the operand field do not matter. -/
theorem readStatement_fieldLine (hlabel : ∀ l ∈ label, IsField l) :
    AreOperands field (splitOperands field) ∧
      (fieldRow label mnemonic field).fields = label.getD "" :: Text.upper mnemonic ::
        ((splitOperands field).map normalOperand ++
          List.replicate (2 - Text.countOutside (· == ',') field.toList) "") ∧
      ∀ number, readStatement (fieldLine label gap mnemonic gap' field trailer) number =
        if 2 < Text.countOutside (· == ',') field.toList then
          .error ⟨.tooManyOperands (splitOperands field).length, number,
            fieldLine label gap mnemonic gap' field trailer⟩
        else .ok (some (fieldRow label mnemonic field)) := by
  have hoperands := areOperands_splitOperands hfield.closed
  have hlength : ((splitOperands field).map normalOperand).length =
      Text.countOutside (· == ',') field.toList + 1 := by
    rw [List.length_map, hoperands.count]
  refine ⟨hoperands, ?_, ?_⟩
  · rw [Row.fields, fieldRow, hlength, maxOperands, Nat.add_sub_add_right 2 1]
  · intro number
    obtain ⟨c, cs, rest, hcut, hc, hfields⟩ :=
      exists_cut_fieldLine hgap hmnemonic hgap' hfield htrailer hlabel
    have hrow : rowOfFields (label.getD "") (mnemonic :: field :: rest) =
        fieldRow label mnemonic field := rfl
    have hcount : (fieldRow label mnemonic field).operands.length ≤ maxOperands ↔
        ¬2 < Text.countOutside (· == ',') field.toList := by
      rw [fieldRow, hlength, maxOperands]
      omega
    rw [readStatement_of_cut hcut hfields hc, hrow]
    by_cases hmany : 2 < Text.countOutside (· == ',') field.toList
    · rw [if_pos hmany, if_neg (mt hcount.mp (not_not_intro hmany)), fieldRow, List.length_map]
    · rw [if_neg hmany, if_pos (hcount.mpr hmany)]

end Line

/-- Quoted separators, blanks beyond ASCII, and a remark with an apostrophe and a semicolon. -/
theorem readStatement_remark :
    (∀ l ∈ some "L' ;'", IsField l) ∧ IsGap "\u3000" ∧ IsField "out" ∧ IsGap "\t " ∧
      IsField "'x ,;y',gr1" ∧ IsTrailer " don't; stop" ∧
      readStatement "L' ;'\u3000out\t 'x ,;y',gr1 don't; stop" =
        .ok (some ⟨"L' ;'", "OUT", ["'x ,;y'", "GR1"]⟩) := by
  have hlabel : ∀ l ∈ some "L' ;'", IsField l := by decide +kernel
  have hgap : IsGap "\u3000" := by decide +kernel
  have hmnemonic : IsField "out" := by decide +kernel
  have hgap' : IsGap "\t " := by decide +kernel
  have hfield : IsField "'x ,;y',gr1" := by decide +kernel
  have htrailer : IsTrailer " don't; stop" := .remark rfl "don't; stop".toList
  refine ⟨hlabel, hgap, hmnemonic, hgap', hfield, htrailer, ?_⟩
  have hread := (readStatement_fieldLine hgap hmnemonic hgap' hfield htrailer hlabel).2.2 0
  have hrow : fieldRow (some "L' ;'") "out" "'x ,;y',gr1" =
      ⟨"L' ;'", "OUT", ["'x ,;y'", "GR1"]⟩ := by decide +kernel
  rw [if_neg (by decide +kernel), hrow] at hread
  exact hread

end WordMachine
