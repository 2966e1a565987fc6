import WordMachine.Proofs.Fields
import WordMachine.Proofs.Likeness

/-!
# Printed rows

A printed row is read as the row itself, with its empty operands left out. The print puts blanks
between the fields and commas between the operands; where the reader looks for separators no quotes
are open, because only the last field may leave them open.

## Main definitions

* `IsBody`: a text that is read as given fields
* `gap`: the spaces between two columns of a printed row
* `Row.packed`: a row whose empty operands are left out
* `programText`: the text of a program with one printed row on each line

## Main results

* `Row.Regular.readStatement_text`: a printed row is read as the row
* `Workspace.assemble_packed`: a program whose empty operands are left out is assembled in the same
  way
* `readSource_printed`: a program that is printed and read again is the same program
-/

namespace WordMachine

/-! ## Joined fields -/

/-- A text that is read as given fields. -/
structure IsBody (cs : List Char) (fields : List String) : Prop where
  /-- It is on one line. -/
  newline : '\n' ∉ cs
  /-- It has no comment. -/
  comment : Text.Solid (· == ';') false cs
  /-- It does not end in a blank. -/
  ends : Text.trimEnd cs = cs
  /-- It is not empty. -/
  ne_nil : cs ≠ []
  /-- Its fields are the given ones. -/
  fields : splitFields cs = fields

theorem IsLabel.isBody {s : String} (h : IsLabel s.toList) : IsBody s.toList [s] :=
  ⟨h.newline, h.comment, h.ends, h.ne_nil, h.splitFields_eq⟩

namespace Text

theorem trimEnd_append_blanks {xs blanks : List Char}
    (hblanks : ∀ c ∈ blanks, isBlank c = true) : trimEnd (xs ++ blanks) = trimEnd xs := by
  induction blanks using List.reverseRecOn with
  | nil => rw [List.append_nil]
  | append_singleton blanks c ih =>
    rw [← List.append_assoc, trimEnd_append_blank _ (hblanks c (by simp))]
    exact ih fun d hd => hblanks d (List.mem_append_left _ hd)

end Text

/-- The spaces between a text in a column of a given width and the next column. -/
def gap (width : Nat) (s : String) : List Char :=
  List.replicate (width - s.length) ' ' ++ [' ']

section Gap

variable {width : Nat} {s : String} {cs : List Char} {fields : List String}

theorem eq_space_of_mem_gap {c : Char} (h : c ∈ gap width s) : c = ' ' := by
  rcases List.mem_append.mp h with h | h
  · exact List.eq_of_mem_replicate h
  · exact List.mem_singleton.mp h

theorem isBlank_of_mem_gap : ∀ c ∈ gap width s, Text.isBlank c = true := by
  intro c hc
  rw [eq_space_of_mem_gap hc]
  rfl

theorem newline_gap : '\n' ∉ gap width s := by
  intro h
  cases eq_space_of_mem_gap h

theorem gap_eq_cons (width : Nat) (s : String) : ∃ spaces, gap width s = ' ' :: spaces ∧
    ∀ c ∈ spaces, Text.isBlank c = true := by
  have hall : ∀ c ∈ gap width s, Text.isBlank c = true := isBlank_of_mem_gap
  cases hg : gap width s with
  | nil => exact absurd hg (List.append_ne_nil_of_right_ne_nil _ (List.cons_ne_nil _ _))
  | cons c spaces =>
    obtain rfl : c = ' ' := eq_space_of_mem_gap (hg ▸ List.mem_cons_self)
    rw [hg, List.forall_mem_cons] at hall
    exact ⟨spaces, rfl, hall.2⟩

/-- Spaces are no comment and leave quotes as they are. -/
theorem solid_gap (width : Nat) (s : String) (q : Bool) :
    Text.Solid (· == ';') q (gap width s) ∧ Text.quotedAfter q (gap width s) = q :=
  Text.solid_of_plain fun c hc => ne_of_isBlank (isBlank_of_mem_gap c hc)

/-- A field, spaces and a text are read as that field and the fields of the text. -/
theorem IsBody.cons {w : Nat} (hs : IsLabel s.toList)
    (hclosed : Text.quotedAfter false s.toList = false) (h : IsBody cs fields) :
    IsBody (s.toList ++ (gap w s ++ cs)) (s :: fields) where
  newline := by
    simp only [List.mem_append, not_or]
    exact ⟨hs.newline, newline_gap, h.newline⟩
  comment := by
    obtain ⟨hsolid, hquotes⟩ := solid_gap w s false
    rw [Text.solid_append_iff, Text.solid_append_iff, hclosed, hquotes]
    exact ⟨hs.comment, hsolid, h.comment⟩
  ends := by
    rw [← List.append_assoc]
    exact Text.trimEnd_append h.ne_nil h.ends
  ne_nil := List.append_ne_nil_of_left_ne_nil hs.ne_nil _
  fields := by
    -- the first space ends the field, and the others are skipped
    obtain ⟨spaces, hgap, hspaces⟩ := gap_eq_cons w s
    rw [hgap, List.cons_append, splitFields_append hs.ne_nil hs.field hclosed rfl,
      splitFields_of_blanks hspaces, h.fields]

end Gap

/-! ## Joined operands -/

/-- Texts that are joined by a character: the first, the character, and the joined others. -/
theorem toList_intercalate {sep : String} {c : Char} (hsep : sep.toList = [c]) (s s' : String)
    (ss : List String) : (sep.intercalate (s :: s' :: ss)).toList =
      s.toList ++ c :: (sep.intercalate (s' :: ss)).toList := by
  simp [String.intercalate_cons_cons, hsep]

/-- Operands between commas make one field. -/
theorem isLabel_intercalate {os : List String} (hne : os ≠ [])
    (hlabels : ∀ o ∈ os, IsLabel o.toList)
    (hclosed : os.Pairwise fun o _ => Text.quotedAfter false o.toList = false) :
    IsLabel (",".intercalate os).toList := by
  -- Induction on the operands: another one follows each comma, so no quotes are open there.
  induction os with
  | nil => exact absurd rfl hne
  | cons o os ih =>
    obtain ⟨ho, hos⟩ := List.forall_mem_cons.mp hlabels
    cases os with
    | nil => rwa [String.intercalate_singleton]
    | cons o' os =>
      have hrest := ih (List.cons_ne_nil _ _) hos hclosed.of_cons
      have hquotes : Text.quotedAfter false o.toList = false :=
        List.rel_of_pairwise_cons hclosed List.mem_cons_self
      -- the comma is neither a blank nor the beginning of a comment
      have hcomma {p : Char → Bool} (hp : p ',' = false)
          (hs : Text.Solid p false (",".intercalate (o' :: os)).toList) :
          Text.Solid p false (',' :: (",".intercalate (o' :: os)).toList) := by
        refine (Text.solid_cons_iff (by decide)).mpr ⟨?_, hs⟩
        rw [hp]
        nofun
      rw [toList_intercalate rfl]
      refine ⟨List.append_ne_nil_of_left_ne_nil ho.ne_nil _, ?_, ?_, ?_, ?_⟩
      · simp only [List.mem_append, List.mem_cons, not_or]
        exact ⟨ho.newline, by decide, hrest.newline⟩
      · rw [Text.solid_append_iff, hquotes]
        exact ⟨ho.comment, hcomma rfl hrest.comment⟩
      · rw [Text.solid_append_iff, hquotes]
        exact ⟨ho.field, hcomma rfl hrest.field⟩
      · rw [← List.singleton_append, ← List.append_assoc]
        exact Text.trimEnd_append hrest.ne_nil hrest.ends

/-- Operands between commas are read as these operands. -/
theorem splitOperands_intercalate {os : List String} (hne : os ≠ [])
    (hsolid : ∀ o ∈ os, Text.Solid (· == ',') false o.toList)
    (hclosed : os.Pairwise fun o _ => Text.quotedAfter false o.toList = false) :
    splitOperands (",".intercalate os) = os := by
  induction os with
  | nil => exact absurd rfl hne
  | cons o os ih =>
    obtain ⟨ho, hos⟩ := List.forall_mem_cons.mp hsolid
    cases os with
    | nil => rw [String.intercalate_singleton, splitOperands, ho, List.map_singleton,
        String.ofList_toList]
    | cons o' os =>
      have hrest := ih (List.cons_ne_nil _ _) hos hclosed.of_cons
      have hquotes : Text.quotedAfter false o.toList = false :=
        List.rel_of_pairwise_cons hclosed List.mem_cons_self
      rw [splitOperands] at hrest
      rw [splitOperands, toList_intercalate rfl,
        Text.splitOutside_append (by decide) rfl ho hquotes, List.map_cons, String.ofList_toList,
        hrest]

/-! ## Printed lines -/

/-- A line that starts with a label. -/
theorem readStatement_of_label {cs : List Char} {label : String} {fields : List String}
    (hl : IsLabel label.toList) (h : IsBody (label.toList ++ cs) (label :: fields))
    (hcount : (rowOfFields label fields).operands.length ≤ maxOperands) (number : Int) :
    readStatement (String.ofList (label.toList ++ cs)) number =
      .ok (some (rowOfFields label fields)) := by
  have htext : withoutComment (label.toList ++ cs) = label.toList ++ cs := by
    rw [withoutComment, h.comment]
    rfl
  obtain ⟨c, tail, hcons, hc⟩ := exists_cons_of_solid hl.ne_nil hl.field
  have hcut : Text.trimEnd (withoutComment (String.ofList (label.toList ++ cs)).toList) =
      c :: (tail ++ cs) := by
    rw [String.toList_ofList, htext, h.ends, hcons, List.cons_append]
  have hfields : splitFields (c :: (tail ++ cs)) = (some label).toList ++ fields := by
    rw [← List.cons_append, ← hcons]
    exact h.fields
  exact (readStatement_of_cut hcut hfields hc number).trans (if_pos hcount)

/-- A line that starts with spaces. -/
theorem readStatement_of_gap {cs : List Char} {fields : List String} {width : Nat} {s : String}
    (h : IsBody cs fields) (hcount : (rowOfFields "" fields).operands.length ≤ maxOperands)
    (number : Int) :
    readStatement (String.ofList (gap width s ++ cs)) number =
      .ok (some (rowOfFields "" fields)) := by
  have htext : withoutComment (gap width s ++ cs) = gap width s ++ cs := by
    obtain ⟨hsolid, hquotes⟩ := solid_gap width s false
    have hall : Text.Solid (· == ';') false (gap width s ++ cs) := by
      rw [Text.solid_append_iff, hquotes]
      exact ⟨hsolid, h.comment⟩
    rw [withoutComment, hall]
    rfl
  obtain ⟨spaces, hgap, -⟩ := gap_eq_cons width s
  have hcut : Text.trimEnd (withoutComment (String.ofList (gap width s ++ cs)).toList) =
      ' ' :: (spaces ++ cs) := by
    rw [String.toList_ofList, htext, Text.trimEnd_append h.ne_nil h.ends, hgap, List.cons_append]
  have hfields : splitFields (' ' :: (spaces ++ cs)) = (none : Option String).toList ++ fields := by
    rw [← List.cons_append, ← hgap, splitFields_of_blanks isBlank_of_mem_gap]
    exact h.fields
  exact (readStatement_of_cut hcut hfields rfl number).trans (if_pos hcount)

/-! ## Packed rows -/

namespace Row

/-- The row with its empty operands left out. -/
def packed (r : Row) : Row :=
  { r with operands := r.operands.filter (· ≠ "") }

variable {r : Row}

theorem count_packed (h : r.operands.length ≤ maxOperands) :
    r.packed.operands.length ≤ maxOperands :=
  (List.length_filter_le _ _).trans h

theorem text_packed (r : Row) : r.packed.text = r.text := by
  simp [text, packed]

theorem given_packed (h : r.operands.length ≤ maxOperands) : r.packed.given = r.given := by
  rw [given, given, List.take_of_length_le h, List.take_of_length_le (count_packed h)]
  simp [packed]

/-- The fields of a packed row: the empty operands come behind the others. -/
theorem fields_packed (h : r.operands.length ≤ maxOperands) :
    r.packed.fields = r.label :: r.mnemonic ::
      ((r.fields.drop 2).filter (· ≠ "") ++ (r.fields.drop 2).filter (· = "")) := by
  have hsum := List.length_eq_length_filter_add (l := r.operands) fun o => decide (o ≠ "")
  simp only [decide_not, Bool.not_not] at hsum
  -- the empty operands and the fields that are left out are alike
  have hempty : r.operands.filter (· = "") =
      List.replicate (r.operands.length - r.packed.operands.length) "" := by
    refine List.eq_replicate_iff.mpr ⟨?_, by simp⟩
    simp only [packed, ne_eq, decide_not]
    omega
  have hle : r.packed.operands.length ≤ r.operands.length := List.length_filter_le _ _
  have hroom : r.operands.length - r.packed.operands.length + (maxOperands - r.operands.length) =
      maxOperands - r.packed.operands.length := by
    omega
  have hfilled : (r.fields.drop 2).filter (· ≠ "") = r.packed.operands := by
    simp [fields, packed]
  have hblank : (r.fields.drop 2).filter (· = "") =
      List.replicate (maxOperands - r.packed.operands.length) "" := by
    simp only [fields, List.drop_succ_cons, List.drop_zero, List.filter_append, hempty]
    simp [List.replicate_append_replicate, hroom]
  rw [hfilled, hblank]
  rfl

theorem mem_packed {o : String} : o ∈ r.packed.operands ↔ o ∈ r.operands ∧ o ≠ "" := by
  simp [packed]

theorem toList_text (r : Row) :
    r.text.toList = Text.trimEnd (r.label.toList ++ (gap 8 r.label ++ (r.mnemonic.toList ++
      (gap 5 r.mnemonic ++ (",".intercalate r.packed.operands).toList)))) := by
  simp [text, Text.trimStringEnd, Text.toList_padEnd, gap, packed]

/-- A printed row shows its label, its mnemonic and its operands, each of them behind the column of
the field in front of it; only blanks at the end are missing. -/
theorem exists_toList_text (r : Row) : ∃ blanks, (∀ c ∈ blanks, Text.isBlank c = true) ∧
    r.text.toList ++ blanks = r.label.toList ++ (gap 8 r.label ++ (r.mnemonic.toList ++
      (gap 5 r.mnemonic ++ (",".intercalate r.packed.operands).toList))) := by
  rw [toList_text]
  exact ⟨_, fun c => List.mem_rtakeWhile_imp, List.rdropWhile_append_rtakeWhile⟩

end Row

/-! ## Printed rows -/

namespace Row.Regular

variable {r : Row}

theorem operand_packed (h : r.Regular) : ∀ o ∈ r.packed.operands,
    IsLabel o.toList ∧ Text.Solid (· == ',') false o.toList := by
  intro o ho
  obtain ⟨ho, hne⟩ := mem_packed.mp ho
  exact h.operand o ho hne

theorem closed_packed (h : r.Regular) :
    r.packed.operands.Pairwise fun o _ => Text.quotedAfter false o.toList = false := by
  rw [packed, List.pairwise_filter]
  refine h.closed.of_cons.of_cons.imp ?_
  intro _ _ hquotes _ hne
  exact hquotes (by simpa using hne)

theorem normal_packed (h : r.Regular) :
    r.packed.operands.map normalOperand = r.packed.operands :=
  (List.map_congr_left fun o ho => h.normal o (mem_packed.mp ho).1).trans (List.map_id' _)

/-- What is printed behind the label of a row that has a mnemonic. -/
theorem exists_body (h : r.Regular) (hm : r.mnemonic ≠ "") :
    ∃ cs fields, IsBody cs (r.mnemonic :: fields) ∧
      r.text.toList = r.label.toList ++ (gap 8 r.label ++ cs) ∧
      rowOfFields r.label (r.mnemonic :: fields) = r.packed := by
  have hlabel := h.mnemonic hm
  have htext {cs : List Char} {fields : List String} (hbody : IsBody cs fields) :
      Text.trimEnd (r.label.toList ++ (gap 8 r.label ++ cs)) =
        r.label.toList ++ (gap 8 r.label ++ cs) := by
    rw [← List.append_assoc]
    exact Text.trimEnd_append hbody.ne_nil hbody.ends
  cases hos : r.packed.operands with
  | nil =>
    -- the spaces behind the mnemonic are cut
    refine ⟨r.mnemonic.toList, [], hlabel.isBody, ?_, ?_⟩
    · rw [toList_text, hos, String.intercalate_nil, String.toList_empty, List.append_nil,
        ← htext hlabel.isBody]
      simp only [← List.append_assoc]
      exact Text.trimEnd_append_blanks isBlank_of_mem_gap
    · rw [rowOfFields, h.upper, packed]
      exact congrArg _ hos.symm
  | cons o os =>
    have hne : r.packed.operands ≠ [] := hos ▸ List.cons_ne_nil o os
    obtain ⟨ho, hofull⟩ := mem_packed.mp (hos ▸ List.mem_cons_self : o ∈ r.packed.operands)
    have hmclosed : Text.quotedAfter false r.mnemonic.toList = false :=
      List.rel_of_pairwise_cons h.closed.of_cons ho hofull
    have hfield := isLabel_intercalate hne (fun o ho => (h.operand_packed o ho).1) h.closed_packed
    have hbody := IsBody.cons (w := 5) hlabel hmclosed hfield.isBody
    refine ⟨_, _, hbody, ?_, ?_⟩
    · rw [toList_text, htext hbody]
    · have hsplit := splitOperands_intercalate hne (fun o ho => (h.operand_packed o ho).2)
        h.closed_packed
      rw [rowOfFields, hsplit, h.normal_packed, h.upper]
      rfl

/-- A row without a mnemonic is printed as its label. -/
theorem text_of_unnamed (h : r.Regular) (hm : r.mnemonic = "") :
    r.text.toList = r.label.toList := by
  obtain ⟨hl, hos⟩ := h.named hm
  have hpacked : r.packed.operands = [] := by rw [packed, hos, List.filter_nil]
  have hblanks : ∀ c ∈ gap 8 r.label ++ gap 5 r.mnemonic, Text.isBlank c = true := by
    intro c hc
    rcases List.mem_append.mp hc with hc | hc <;> exact isBlank_of_mem_gap c hc
  rw [toList_text, hpacked, hm, String.intercalate_nil, String.toList_empty, List.append_nil,
    List.nil_append, ← hm, Text.trimEnd_append_blanks hblanks, (h.label hl).ends]

/-- A printed row is one line, and it is read as the row. -/
theorem readStatement_text (h : r.Regular) :
    '\n' ∉ r.text.toList ∧ ∀ number, readStatement r.text number = .ok (some r.packed) := by
  have hcount := count_packed h.count
  rw [← String.ofList_toList (s := r.text), String.toList_ofList]
  by_cases hm : r.mnemonic = ""
  · -- a label alone
    obtain ⟨hl, hos⟩ := h.named hm
    have hlabel := h.label hl
    have hpacked : rowOfFields r.label [] = r.packed := by
      rw [packed, hos, rowOfFields, hm]
      rfl
    have hbody := hlabel.isBody
    rw [← List.append_nil r.label.toList] at hbody
    rw [← hpacked] at hcount ⊢
    rw [h.text_of_unnamed hm, ← List.append_nil r.label.toList]
    exact ⟨hbody.newline, readStatement_of_label hlabel hbody hcount⟩
  · obtain ⟨cs, fields, hbody, htext, hpacked⟩ := h.exists_body hm
    rw [← hpacked] at hcount ⊢
    rw [htext]
    by_cases hl : r.label = ""
    · -- the line starts with the spaces of the empty column
      rw [hl, String.toList_empty, List.nil_append, List.mem_append, not_or]
      rw [hl] at hcount
      exact ⟨⟨newline_gap, hbody.newline⟩, readStatement_of_gap hbody hcount⟩
    · have hlabel := h.label hl
      have hall := IsBody.cons (w := 8) hlabel (List.rel_of_pairwise_cons h.closed
        List.mem_cons_self hm) hbody
      exact ⟨hall.newline, readStatement_of_label hlabel hall hcount⟩

end Row.Regular

/-! ## Printed programs -/

/-- The text of a program: one printed row on each line. -/
def programText (rows : List Row) : String :=
  "\n".intercalate (rows.map Row.text)

/-- Joined lines are cut into these lines again. -/
theorem pieces_intercalate {lines : List String} (hne : lines ≠ [])
    (h : ∀ line ∈ lines, '\n' ∉ line.toList) : Text.pieces ("\n".intercalate lines) = lines := by
  induction lines with
  | nil => exact absurd rfl hne
  | cons line lines ih =>
    obtain ⟨hline, hlines⟩ := List.forall_mem_cons.mp h
    have hone : Text.splitOn (· == '\n') line.toList = [line.toList] := by
      refine Text.splitOn_of_forall ?_
      intro c hc
      rw [beq_eq_false_iff_ne]
      rintro rfl
      exact hline hc
    cases lines with
    | nil =>
      rw [String.intercalate_singleton, Text.pieces, hone, List.map_singleton,
        String.ofList_toList]
    | cons line' lines =>
      have hrest := ih (List.cons_ne_nil _ _) hlines
      rw [Text.pieces] at hrest
      rw [Text.pieces, toList_intercalate rfl, Text.splitOn_append rfl, hone, List.map_append,
        hrest, List.map_singleton, String.ofList_toList]
      rfl

theorem readLines_text {rows : List Row} (h : ∀ r ∈ rows, r.Regular) (number : Int) :
    readLines number (rows.map Row.text) = .ok (rows.map Row.packed) := by
  induction rows generalizing number with
  | nil => rfl
  | cons r rows ih =>
    obtain ⟨hr, hrows⟩ := List.forall_mem_cons.mp h
    rw [List.map_cons, readLines, hr.readStatement_text.2, ih hrows]
    rfl

/-- The text of regular rows is read as these rows. -/
theorem readSource_programText {rows : List Row} (h : ∀ r ∈ rows, r.Regular) :
    readSource (programText rows) = .ok (rows.map Row.packed) := by
  cases hrows : rows with
  | nil =>
    -- the empty text has one line, which holds no statement
    rfl
  | cons r rest =>
    rw [← hrows, readSource, programText, pieces_intercalate, readLines_text h]
    · rw [hrows]
      exact List.cons_ne_nil _ _
    · intro line hline
      obtain ⟨r, hr, rfl⟩ := List.mem_map.mp hline
      exact (h r hr).readStatement_text.1

/-! ## Assembly of packed rows -/

section Assembly

variable {r : Row} {rows : List Row}

/-- A row makes the same without its empty operands. -/
theorem Row.alike_packed (h : r.operands.length ≤ maxOperands) : r.Alike r.packed where
  label := rfl
  items := by
    rw [items, items, given_packed h]
    rfl
  start := by
    intro d
    rw [Draft.noteStart, Draft.noteStart, given_packed h]
    rfl

/-- A program is quoted without its empty operands. -/
theorem Failure.quoting_packed (rows : List Row) :
    Failure.quoting (rows.map Row.packed) = Failure.quoting rows := by
  funext f
  have htext : Row.text ∘ Row.packed = Row.text := funext Row.text_packed
  cases f with
  | refused d =>
    rw [quoting, quoting, Diagnostic.quoting, Diagnostic.quoting, List.getElem?_map,
      Option.map_map, htext]
  | negativeAddress e => rfl

/-- A program whose empty operands are left out is assembled in the same way. -/
theorem Workspace.assemble_packed (w : Workspace)
    (h : ∀ r ∈ w.rows, r.operands.length ≤ maxOperands) :
    { w with rows := w.rows.map Row.packed }.assemble =
      (w.assemble.1, { w.assemble.2 with rows := w.rows.map Row.packed }) := by
  have halike : List.Forall₂ Row.Alike w.rows (w.rows.map Row.packed) := by
    rw [List.forall₂_map_right_iff, List.forall₂_same]
    exact fun r hr => Row.alike_packed (h r hr)
  rw [w.assemble_alike halike, Failure.quoting_packed, w.mapError_quoting_assemble]

end Assembly

/-! ## Reading what was printed -/

/-- A program that is printed and read again is the same program with the empty operands of its rows
left out; among the fields of a row they come behind the others. In any workspace both programs are
assembled in the same way, or fail in the same way. -/
theorem readSource_printed {source : String} {rows : List Row} (h : readSource source = .ok rows) :
    readSource (programText rows) = .ok (rows.map Row.packed) ∧
      (∀ r ∈ rows, r.packed.fields = r.label :: r.mnemonic ::
        ((r.fields.drop 2).filter (· ≠ "") ++ (r.fields.drop 2).filter (· = ""))) ∧
      ∀ w : Workspace, w.rows = rows →
        { w with rows := rows.map Row.packed }.assemble =
            (w.assemble.1, { w.assemble.2 with rows := rows.map Row.packed }) ∧
          { w with rows := rows.map Row.packed }.assemble.2.entryAddress =
            w.assemble.2.entryAddress := by
  have hregular : ∀ r ∈ rows, r.Regular := fun r hr => Row.regular_of_readSource h hr
  refine ⟨readSource_programText hregular, fun r hr => Row.fields_packed (hregular r hr).count, ?_⟩
  rintro w rfl
  have hassemble := w.assemble_packed fun r hr => (hregular r hr).count
  refine ⟨hassemble, ?_⟩
  rw [hassemble]
  rfl

/-- A long label, a label alone, empty operands, quoted separators and quotes that stay open. -/
theorem readSource_printed_quoted :
    let source := "LONGLABEL lad gr1,,X ; 1\n  \nALONE\n dc 'a b,c;d'\nL'A B;' out ,'x; y\n ret' ;"
    let rows : List Row := [⟨"LONGLABEL", "LAD", ["GR1", "", "X"]⟩, ⟨"ALONE", "", []⟩,
      ⟨"", "DC", ["'a b,c;d'"]⟩, ⟨"L'A B;'", "OUT", ["", "'x; y"]⟩, ⟨"", "RET' ;", []⟩]
    readSource source = .ok rows ∧
      readSource (programText rows) = .ok (rows.map Row.packed) := by
  intro source rows
  have h : readSource source = .ok rows := by decide +kernel
  exact ⟨h, (readSource_printed h).1⟩

end WordMachine
