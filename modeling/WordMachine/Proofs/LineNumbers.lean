import WordMachine.Proofs.Reachability

/-!
# Line numbers

A diagnostic has the number of a line. If a line cannot be split into fields it is the number of
that line in the program text. If a statement is refused it is the number of the statement among the
statements, since the assembler gets the rows of the statements only, and a line without a statement
makes no row. So the two numbers count differently as soon as a line without a statement stands
before the refused one.

## Main definitions

* `holdsStatement`: a line holds a statement
* `Workspace.refusal?`: the diagnostic for which a program text is refused
* `Workspace.UnreadableLine`, `Workspace.RefusedLine`: what a diagnostic says about a line

## Main results

* `exists_line_of_readLines`: the line of a row, and how many statements stand before it
* `exists_line_of_readLines_error`: the line that cannot be split into fields
* `Workspace.line_of_refusal`: the line that a diagnostic is about, and its number
-/

namespace WordMachine

/-! ## Lines of statements -/

/-- A line holds a statement: something is left of it without its comment and the blanks at its
end. -/
def holdsStatement (line : String) : Bool :=
  !(Text.trimEnd (withoutComment line.toList)).isEmpty

/-- A line without a statement is read as none. -/
theorem readStatement_of_not_holdsStatement {line : String} (h : holdsStatement line = false)
    (number : Int) : readStatement line number = .ok none := by
  have hempty : Text.trimEnd (withoutComment line.toList) = [] := by
    simpa [holdsStatement] using h
  rw [readStatement, hempty]

/-- A line with a statement is read as a row, or cannot be split into fields. -/
theorem readStatement_of_holdsStatement {line : String} (h : holdsStatement line = true)
    (number : Int) : (∃ r, readStatement line number = .ok (some r)) ∨
      ∃ count, readStatement line number = .error ⟨.tooManyOperands count, number, line⟩ := by
  rw [readStatement]
  cases ht : Text.trimEnd (withoutComment line.toList) with
  | nil => simp [holdsStatement, ht] at h
  | cons c cs =>
    dsimp only
    generalize (if Text.isBlank c = true then _ else _ : Row) = row
    by_cases hcount : row.operands.length ≤ maxOperands
    · exact .inl ⟨row, if_pos hcount⟩
    · exact .inr ⟨_, if_neg hcount⟩

theorem holdsStatement_of_readStatement {line : String} {number : Int} {r : Row}
    (h : readStatement line number = .ok (some r)) : holdsStatement line = true := by
  by_contra hnone
  rw [Bool.not_eq_true] at hnone
  rw [readStatement_of_not_holdsStatement hnone] at h
  cases h

/-- A line that cannot be split into fields has too many operands; the diagnostic has the line's
number and its text. -/
theorem exists_of_readStatement_error {line : String} {number : Int} {d : Diagnostic}
    (h : readStatement line number = .error d) :
    ∃ count, d = ⟨.tooManyOperands count, number, line⟩ := by
  cases hs : holdsStatement line with
  | false =>
    rw [readStatement_of_not_holdsStatement hs] at h
    cases h
  | true =>
    rcases readStatement_of_holdsStatement hs number with ⟨r, hr⟩ | ⟨count, hcount⟩
    · cases hr.symm.trans h
    · exact ⟨count, Except.error.inj (h.symm.trans hcount)⟩

/-- A row with an index is that of a line before which as many statements stand. -/
theorem exists_line_of_readLines {number : Int} {lines : List String} {rows : List Row}
    (h : readLines number lines = .ok rows) {i : Nat} {r : Row} (hr : rows[i]? = some r) :
    ∃ (n : Nat) (line : String), lines[n]? = some line ∧
      readStatement line (number + n) = .ok (some r) ∧
      (lines.take n).countP holdsStatement = i := by
  -- Induction on the lines: the first one makes one row, or none.
  induction lines generalizing number rows i with
  | nil =>
    obtain rfl := Except.ok.inj h
    cases hr
  | cons line lines ih =>
    obtain ⟨row?, hrow, h⟩ := bind_eq_ok h
    obtain ⟨rest, hrest, h⟩ := bind_eq_ok h
    obtain rfl := Except.ok.inj h
    have hlater {j : Nat} (hj : rest[j]? = some r) :
        ∃ (n : Nat) (l : String), (line :: lines)[n]? = some l ∧
          readStatement l (number + n) = .ok (some r) ∧
          ((line :: lines).take n).countP holdsStatement =
            j + if holdsStatement line then 1 else 0 := by
      obtain ⟨n, l, hl, hread, hcount⟩ := ih hrest hj
      refine ⟨n + 1, l, hl, ?_, ?_⟩
      · have hnumber : number + ((n + 1 : Nat) : Int) = number + 1 + n := by omega
        rw [hnumber, hread]
      · rw [List.take_succ_cons, List.countP_cons, hcount]
    cases row? with
    | none =>
      have hnone : holdsStatement line = false := by
        by_contra hsome
        rw [Bool.not_eq_false] at hsome
        rcases readStatement_of_holdsStatement hsome number with ⟨r', hr'⟩ | ⟨count, hcount⟩
        · cases hr'.symm.trans hrow
        · cases hcount.symm.trans hrow
      simpa [hnone] using hlater hr
    | some first =>
      have hsome := holdsStatement_of_readStatement hrow
      cases i with
      | zero =>
        obtain rfl : first = r := Option.some.inj hr
        refine ⟨0, line, rfl, ?_, rfl⟩
        rw [Int.natCast_zero, Int.add_zero, hrow]
      | succ i => simpa [hsome] using hlater hr

/-- Lines cannot be read for the first one that cannot be split into fields. -/
theorem exists_line_of_readLines_error {number : Int} {lines : List String} {d : Diagnostic}
    (h : readLines number lines = .error d) :
    ∃ (n : Nat) (line : String), lines[n]? = some line ∧
      readStatement line (number + n) = .error d ∧
      ∃ rows, readLines number (lines.take n) = .ok rows := by
  induction lines generalizing number with
  | nil => cases h
  | cons line lines ih =>
    rcases bind_eq_error h with hfirst | ⟨row?, hrow, h⟩
    · refine ⟨0, line, rfl, ?_, [], rfl⟩
      rw [Int.natCast_zero, Int.add_zero, hfirst]
    · rcases bind_eq_error h with hrest | ⟨rows, -, h⟩
      · obtain ⟨n, l, hl, hread, rows, hrows⟩ := ih hrest
        refine ⟨n + 1, l, hl, ?_, row?.toList ++ rows, ?_⟩
        · have hnumber : number + ((n + 1 : Nat) : Int) = number + 1 + n := by omega
          rw [hnumber, hread]
        · rw [List.take_succ_cons, readLines, hrow, hrows]
          rfl
      · cases h

theorem exists_of_readSource_error {source : String} {d : Diagnostic}
    (h : readSource source = .error d) :
    ∃ count number line, d = ⟨.tooManyOperands count, number, line⟩ := by
  obtain ⟨n, line, -, hfails, -⟩ := exists_line_of_readLines_error h
  obtain ⟨count, hd⟩ := exists_of_readStatement_error hfails
  exact ⟨count, _, line, hd⟩

/-- Of the lines before a statement, those without a statement make its number among the statements
fall short of the number of its line. -/
theorem number_of_statement {lines : List String} {n i : Nat} {line : String}
    (hn : lines[n]? = some line) (hi : (lines.take n).countP holdsStatement = i) :
    (i : Int) + 1 + ((lines.take n).countP fun l => !holdsStatement l) = n + 1 ∧
      ((i : Int) + 1 = n + 1 ↔ ∀ l ∈ lines.take n, holdsStatement l = true) := by
  have hlength : (lines.take n).length = n :=
    List.length_take_of_le (Nat.le_of_lt (List.getElem?_eq_some_iff.mp hn).1)
  have hcount := List.length_eq_countP_add_countP holdsStatement (l := lines.take n)
  have hnone : (lines.take n).countP (fun l => !holdsStatement l) =
      (lines.take n).countP (fun l => ¬holdsStatement l = true) := by
    congr 1
    funext l
    simp
  constructor
  · omega
  · rw [← List.countP_eq_length, hlength]
    omega

/-! ## Diagnostics of the assembler -/

namespace Workspace

/-- The diagnostic for which a program text is refused, by the reader or by the assembler. -/
def refusal? (memory : Memory) (base : Int) (source : String) : Option Diagnostic :=
  match ofSource memory base source with
  | .error d => some d
  | .ok w =>
    match w.assemble.1 with
    | .error (.refused d) => some d
    | _ => none

/-- The diagnostic `d` says that a line of a text cannot be split into fields: the line behind the
first `n` lines. -/
structure UnreadableLine (source : String) (n : Nat) (line : String) (d : Diagnostic) : Prop where
  /-- The line cannot be split into fields. -/
  fails : readStatement line (n + 1) = .error d
  /-- The lines before it can. -/
  before : ∃ rows, readLines 1 ((Text.pieces source).take n) = .ok rows
  /-- The number is that of the line. -/
  number : d.line = n + 1
  /-- The text is that of the line. -/
  text : d.lineText = line

/-- The diagnostic `d` says that the statement of a line is refused: the line behind the first `n`
lines of the program text of `w`, which is the row with index `i`. -/
structure RefusedLine (w : Workspace) (source : String) (n : Nat) (line : String) (i : Nat)
    (r : Row) (c : Complaint) (d : Diagnostic) : Prop where
  /-- The row is the statement of the line. -/
  reads : readStatement line (n + 1) = .ok (some r)
  /-- It is the row with the index. -/
  row : w.rows[i]? = some r
  /-- As many statements stand before the line. -/
  index : ((Text.pieces source).take n).countP holdsStatement = i
  /-- The diagnostic is a complaint about the row. -/
  complaint : d = ⟨c, i + 1, r.text⟩
  /-- The first pass accepts the rows before it. -/
  before : ({ w with rows := w.rows.take i } : Workspace).layOut.1 = .ok ()
  /-- Whatever rows follow, the program is refused for the same reason. -/
  behind : ∀ rest, ({ w with rows := w.rows.take (i + 1) ++ rest } : Workspace).assemble.1 =
    .error (.refused d)
  /-- The number falls short of that of the line by the lines before it that hold no statement. -/
  number : d.line + (((Text.pieces source).take n).countP fun l => !holdsStatement l) = n + 1
  /-- So it is the number of the line just if each line before it holds a statement. -/
  number_iff : d.line = n + 1 ↔ ∀ l ∈ (Text.pieces source).take n, holdsStatement l = true

/-- The first row that the first pass refuses. -/
theorem exists_row_of_layOut {w : Workspace} {d : Diagnostic}
    (h : w.layOut.1 = .error (.refused d)) :
    ∃ (i : Nat) (r : Row) (c : Complaint), w.rows[i]? = some r ∧ d = r.diagnostic i c ∧
      ({ w with rows := w.rows.take i } : Workspace).layOut.1 = .ok () ∧
      ∀ rest, ({ w with rows := w.rows.take (i + 1) ++ rest } : Workspace).assemble.1 =
        .error (.refused d) := by
  have hrows : ∃ e, Draft.ofRows w.base w.rows = (.error (.refused d), e) := by
    rw [layOut] at h
    rcases hd : Draft.ofRows w.base w.rows with ⟨f | ⟨⟩, e⟩ <;> rw [hd] at h
    · exact ⟨e, by rw [Except.error.inj h]⟩
    · cases h
  obtain ⟨e, hrows⟩ := hrows
  obtain ⟨before, row, after, d', hsplit, hbefore, hrow⟩ := Draft.addRows_eq_error_iff.mp hrows
  rw [Nat.zero_add] at hrow
  obtain ⟨c, hc, -⟩ := Draft.exists_of_addRow_refused hrow
  refine ⟨before.length, row, c, by simp [hsplit], hc, ?_, ?_⟩
  · refine layOut_of_ok (d := d') ?_
    rw [hsplit, List.take_left' rfl]
    exact hbefore
  · intro rest
    have htake : w.rows.take (before.length + 1) ++ rest = before ++ row :: rest := by
      rw [hsplit, List.take_length_add_append]
      simp
    have hstop : Draft.ofRows w.base (w.rows.take (before.length + 1) ++ rest) =
        (.error (.refused d), e) := by
      rw [htake]
      exact Draft.addRows_eq_error_iff.mpr
        ⟨before, row, rest, d', rfl, hbefore, by rwa [Nat.zero_add]⟩
    exact congrArg Prod.fst (assemble_of_error hstop)

/-- A diagnostic with a line comes from the first pass. -/
theorem layOut_of_assemble_refused {w : Workspace} {d : Diagnostic}
    (h : w.assemble.1 = .error (.refused d)) (hline : d.line ≠ 0) :
    w.layOut.1 = .error (.refused d) := by
  unfold assemble at h
  rcases hlay : w.layOut with ⟨f | ⟨⟩, w₁⟩ <;> simp only [hlay] at h
  · rw [Except.error.inj h]
  · -- the second pass has failed for an undefined symbol
    simp only [patch] at h
    rcases hr : resolve w₁.memory w₁.symbols w₁.references with ⟨f | ⟨⟩, m⟩ <;> simp only [hr] at h
    · obtain rfl : f = .refused d := Except.error.inj h
      obtain ⟨s, a, rfl⟩ := exists_of_resolve_refused hr
      exact absurd rfl hline
    · cases h

/-- **Line numbers.** A diagnostic with the number of a line is about one line of the program text.
If the line cannot be split into fields it is the number of this line; if its statement is refused
it is the number of the statement among the statements, and so the number of the line just if no
line before it is without a statement. -/
theorem line_of_refusal {memory : Memory} {base : Int} {source : String} {d : Diagnostic}
    (h : refusal? memory base source = some d) (hline : 1 ≤ d.line) :
    ∃ (n : Nat) (line : String), (Text.pieces source)[n]? = some line ∧
      (UnreadableLine source n line d ∨
        ∃ w i r c, ofSource memory base source = .ok w ∧ RefusedLine w source n line i r c d) := by
  unfold refusal? at h
  split at h
  · next g hsource =>
    -- the reader refuses a line
    obtain rfl := Option.some.inj h
    have hread : readLines 1 (Text.pieces source) = .error g := by
      rcases bind_eq_error hsource with hread | ⟨rows, -, hok⟩
      · exact hread
      · cases hok
    obtain ⟨n, line, hn, hfails, hbefore⟩ := exists_line_of_readLines_error hread
    obtain ⟨count, rfl⟩ := exists_of_readStatement_error hfails
    have hnumber : (1 : Int) + n = n + 1 := Int.add_comm 1 n
    refine ⟨n, line, hn, .inl ⟨?_, hbefore, hnumber, rfl⟩⟩
    rw [hnumber] at hfails ⊢
    exact hfails
  · next w hsource =>
    split at h
    · next g hassemble =>
      -- the assembler refuses a row
      obtain rfl := Option.some.inj h
      have hlay := layOut_of_assemble_refused hassemble (by omega)
      obtain ⟨i, r, c, hr, hc, hbefore, hbehind⟩ := exists_row_of_layOut hlay
      obtain ⟨rows, hread, hw⟩ := ofSource_eq_ok hsource
      obtain ⟨n, line, hn, hreads, hindex⟩ := exists_line_of_readLines hread (by rwa [hw] at hr)
      rw [Int.add_comm] at hreads
      -- a number that cannot be read would be reported without its line
      have hk : c.kind ≠ .number := by
        intro hk
        rw [hc, Row.diagnostic_of_number hk] at hline
        cases hline
      rw [Row.diagnostic_of_ne hk] at hc
      subst hc
      have hall := number_of_statement hn hindex
      exact ⟨n, line, hn, .inr ⟨w, i, r, c, hsource, hreads, hr, hindex, rfl, hbefore, hbehind,
        hall.1, hall.2⟩⟩
    · cases h

/-- A program text with a comment and an empty line in front of its statements, the second of which
is refused. -/
def remarked : String := "; remarks\n\n NOP\n BAD"

theorem line_of_refusal_remarked :
    ∃ (d : Diagnostic) (n : Nat) (line : String), refusal? ∅ 0 remarked = some d ∧ 1 ≤ d.line ∧
      (Text.pieces remarked)[n]? = some line ∧
      (UnreadableLine remarked n line d ∨ ∃ w i r c, ofSource ∅ 0 remarked = .ok w ∧
        RefusedLine w remarked n line i r c d) := by
  obtain ⟨d, hd, hline⟩ : ∃ d, refusal? ∅ 0 remarked = some d ∧ 1 ≤ d.line :=
    ⟨⟨.unknownMnemonic "BAD", 2, "         BAD"⟩, by decide +kernel, by decide⟩
  obtain ⟨n, line, hn, hplace⟩ := line_of_refusal hd hline
  exact ⟨d, n, line, hd, hline, hn, hplace⟩

/-- The refused statement stands in the fourth line and is reported for the second one, which is
empty; a fourth line that cannot be split into fields is reported for the fourth one. -/
theorem miscounted_remarked :
    refusal? ∅ 0 remarked = some ⟨.unknownMnemonic "BAD", 2, "         BAD"⟩ ∧
      Text.pieces remarked = ["; remarks", "", " NOP", " BAD"] ∧
      readStatement "" 2 = .ok none ∧ readStatement " BAD" 4 = .ok (some ⟨"", "BAD", []⟩) ∧
      refusal? ∅ 0 "; remarks\n\n NOP\n BAD 1,2,3,4" =
        some ⟨.tooManyOperands 4, 4, " BAD 1,2,3,4"⟩ := by
  refine ⟨by decide +kernel, by decide +kernel, by decide +kernel, by decide +kernel,
    by decide +kernel⟩

end Workspace

end WordMachine
