import WordMachine.Proofs.LiteralPool
import WordMachine.Proofs.Relocation
import WordMachine.Proofs.Reuse

/-!
# Programs that are refused

An assembly that fails leaves behind what it wrote before the failure. The first pass stops in a
row: the rows before it are laid out, with zeros for all symbols, and of the row itself there are at
most two words. The second pass stops at a reference to an undefined label: the references before it
are resolved, and the others still hold zero. Below zero no word can be written, so there a program
can be assembled only if it has none.

## Main definitions

* `Operand.placeholder?`: what an address operand holds before the symbols have addresses
* `Draft.Stopped`: the draft in which a row is refused
* `Workspace.RefusedRow`, `Workspace.UndefinedLabel`: what the two passes leave behind
* `Workspace.Outcome`, `Workspace.BelowZero`: how an assembly ends

## Main results

* `Draft.addRows_eq_error_iff`: rows are refused for the first row that is, whatever follows
* `exists_of_resolve_eq_error`: references are resolved up to the first undefined symbol
* `Workspace.outcome_of_base`: how an assembly ends at any base
-/

namespace WordMachine

/-! ## The cells of a refused row -/

theorem length_cellsOf_lt {items : List Item} {c : Complaint} (h : complaintOf? items = some c) :
    (cellsOf items).length < items.length := by
  induction items with
  | nil => cases h
  | cons item items ih =>
    cases item with
    | error c' => exact Nat.succ_pos _
    | ok cell => exact Nat.succ_lt_succ (ih h)

theorem Directive.length_items_le (d : Directive) (operands : List String) :
    (d.items operands).length ≤ 3 := by
  cases d with
  | start | finish | reserve | push | pop => simp [items]
  | constant | input | output =>
    simp only [items]
    split <;> simp [callItems]

theorem length_supervisorItems_le (operands : List String) :
    (supervisorItems operands).length ≤ 3 := by
  unfold supervisorItems
  split
  · split <;> simp [callItems]
  · simp

theorem Mnemonic.length_items_le (m : Mnemonic) (operands : List String) :
    (m.items operands).length ≤ 3 := by
  unfold items
  split
  · exact length_supervisorItems_le operands
  · split
    · simp
    · next e _ => cases e.address <;> simp

namespace Row

theorem length_items_le (r : Row) : r.items.length ≤ 3 := by
  unfold items
  split
  · simp
  · split
    · exact Directive.length_items_le _ _
    · split
      · exact Mnemonic.length_items_le _ _
      · simp

/-- A row that is refused has made two cells at most: something is wrong with one of its items. -/
theorem length_cells_le {r : Row} {c : Complaint} (h : r.complaint? = some c) :
    r.cells.length ≤ 2 := by
  have hlt : r.cells.length < r.items.length := length_cellsOf_lt h
  have hle := r.length_items_le
  omega

end Row

/-! ## The first pass -/

namespace Draft

theorem addRows_append (d : Draft) (index : Nat) (before rest : List Row) :
    d.addRows index (before ++ rest) =
      match d.addRows index before with
      | (.ok (), e) => e.addRows (index + before.length) rest
      | (.error f, e) => (.error f, e) := by
  induction before generalizing d index with
  | nil => rfl
  | cons row before ih =>
    rw [List.cons_append, addRows, addRows]
    split
    · next e _ => rw [ih, List.length_cons, Nat.add_right_comm, Nat.add_assoc]
    · rfl

/-- Rows are refused for the first row that is refused, whatever rows follow. -/
theorem addRows_eq_error_iff {d e : Draft} {index : Nat} {rows : List Row} {f : Failure} :
    d.addRows index rows = (.error f, e) ↔ ∃ before row after d', rows = before ++ row :: after ∧
      d.addRows index before = (.ok (), d') ∧
      d'.addRow row (index + before.length) = (.error f, e) := by
  constructor
  · intro h
    -- Induction on the rows: each row that is accepted joins those before the refused one.
    induction rows generalizing d index with
    | nil => cases h
    | cons row rows ih =>
      rw [addRows] at h
      split at h
      · next d₁ h₁ =>
        obtain ⟨before, row', after, d', rfl, hb, hr⟩ := ih h
        refine ⟨row :: before, row', after, d', rfl, ?_, ?_⟩
        · rw [addRows, h₁]
          exact hb
        · rwa [List.length_cons, ← Nat.add_assoc, Nat.add_right_comm]
      · next h₁ =>
        obtain ⟨hf, rfl⟩ := Prod.mk.inj h
        obtain rfl := Except.error.inj hf
        exact ⟨[], row, rows, d, rfl, rfl, h₁⟩
  · rintro ⟨before, row, after, d', rfl, hb, hr⟩
    rw [addRows_append, hb]
    simp only [addRows, hr]

/-- The draft in which a row is refused: behind the cells of the rows before there are at most two
cells of the row. -/
structure Stopped (base : Int) (before : List Row) (cells : List Cell) (e : Draft) : Prop where
  base_eq : e.base = base
  cells_eq : e.cells.toList = programCells before ++ cells.map fun c => (c, before.length)
  refused_eq : e.refused = none
  few : cells.length ≤ 2

theorem stopped_of_addRow {base : Int} {before : List Row} {d e : Draft}
    (hd : LaidOut base before d) (h0 : 0 ≤ base) {row : Row} {f : Failure}
    (h : d.addRow row before.length = (.error f, e)) :
    ∃ c cells, f = .refused (row.diagnostic before.length c) ∧ row.Objection c ∧
      Stopped base before cells e := by
  have hplace : 0 ≤ d.address := by
    rw [hd.address_eq]
    omega
  obtain ⟨c, hf, hk, rfl | ⟨hc, rfl⟩⟩ := addRow_eq_error hplace h
  · -- the label is refused, before any cell is made
    exact ⟨c, [], hf, hk, hd.base_eq, by simp [hd.cells_eq], hd.refused_eq, by simp⟩
  · refine ⟨c, row.cells, hf, hk, ?_⟩
    constructor
    · rw [base_extend, hd.base_eq]
    · rw [cells_extend, hd.cells_eq]
    · rw [refused_extend, hd.refused_eq]
    · exact Row.length_cells_le hc

/-- Where there is an address for the words, or there are none, rows that are accepted at one base
are accepted at another. -/
theorem Relocated.addRows_eq_ok {δ : Int} {d d' e : Draft} (h : Relocated δ d e) {index : Nat}
    {rows : List Row} (hplace : 0 ≤ e.address ∨ ∀ r ∈ rows, r.cells = [])
    (hd : d.addRows index rows = (.ok (), d')) : ∃ e', e.addRows index rows = (.ok (), e') := by
  -- Whether a row is taken depends on the base for the place of its cells only.
  induction rows generalizing d e index with
  | nil => exact ⟨e, rfl⟩
  | cons row rows ih =>
    obtain ⟨ht, hd⟩ := addRows_cons_eq_ok hd
    have hrow : row.cells = [] ∨ 0 ≤ e.address := by
      rcases hplace with hp | hp
      · exact .inr hp
      · exact .inl (hp row List.mem_cons_self)
    have hte : e.Takes row := ⟨by rw [h.labelComplaint?, ht.label], ht.sound, hrow⟩
    have hnext : 0 ≤ (e.extend row index).address ∨ ∀ r ∈ rows, r.cells = [] := by
      rcases hplace with hp | hp
      · have hle := address_le_address_addRow hp row index
        rw [addRow_eq_ok_iff.mpr ⟨hte, rfl⟩] at hle
        exact .inl (Int.le_trans hp hle)
      · exact .inr fun r hr => hp r (List.mem_cons_of_mem _ hr)
    obtain ⟨e', he⟩ := ih (h.extend row index) hnext hd
    refine ⟨e', ?_⟩
    rw [Draft.addRows, addRow_eq_ok_iff.mpr ⟨hte, rfl⟩]
    exact he

end Draft

theorem programCells_eq_nil_iff {rows : List Row} :
    programCells rows = [] ↔ ∀ r ∈ rows, r.cells = [] := by
  induction rows using List.reverseRecOn with
  | nil => simp
  | append_singleton rows r ih =>
    rw [programCells_snoc, List.append_eq_nil_iff, ih, List.map_eq_nil_iff, List.forall_mem_append,
      List.forall_mem_singleton]

/-! ## The second pass -/

/-- References are resolved up to the first undefined symbol, which is reported. -/
theorem exists_of_resolve_eq_error {m m' : Memory} {symbols : SymbolTable}
    {references : List (Int × String)} {f : Failure} (hn : ∀ r ∈ references, 0 ≤ r.1)
    (h : resolve m symbols references = (.error f, m')) :
    ∃ before a s after, references = before ++ (a, s) :: after ∧ symbols[s]? = none ∧
      f = .refused { complaint := .undefinedLabel s a } ∧
      resolve m symbols before = (.ok (), m') := by
  induction references generalizing m with
  | nil => cases h
  | cons r references ih =>
    obtain ⟨a, s⟩ := r
    rw [List.forall_mem_cons] at hn
    cases hs : symbols[s]? with
    | none =>
      rw [resolve, hs] at h
      obtain ⟨hf, rfl⟩ := Prod.mk.inj h
      exact ⟨[], a, s, references, rfl, hs, (Except.error.inj hf).symm, rfl⟩
    | some target =>
      -- the reference is resolved, so it is one of those before the undefined symbol
      obtain ⟨n, hw⟩ := m.exists_write_eq_ok hn.1 target
      simp only [resolve, hs, hw] at h
      obtain ⟨before, a', s', after, rfl, hs', hf, hok⟩ := ih hn.2 h
      refine ⟨(a, s) :: before, a', s', after, rfl, hs', hf, ?_⟩
      simp only [resolve, hs, hw, hok]

/-- Where no two references go to one address, each is the last one to its address. -/
theorem lastReference?_of_mem {references : List (Int × String)}
    (hd : references.Pairwise fun r q => r.1 < q.1) {a : Int} {s : String}
    (hm : (a, s) ∈ references) : lastReference? references a = some s := by
  induction references with
  | nil => cases hm
  | cons r references ih =>
    rw [List.pairwise_cons] at hd
    rw [lastReference?_cons]
    rcases List.mem_cons.mp hm with rfl | hm
    · -- all references behind go to higher addresses
      have hnone : lastReference? references a = none := by
        rw [Option.eq_none_iff_forall_ne_some]
        intro t ht
        exact Int.lt_irrefl a (hd.1 (a, t) (mem_of_lastReference? ht))
      simp [hnone]
    · rw [ih hd.2 hm]
      rfl

/-- The references of a program go to higher and higher addresses. -/
theorem pairwise_openPlaces (base : Int) (cells : List Cell) :
    (openPlaces base cells).Pairwise fun r q => r.1 < q.1 := by
  induction cells using List.reverseRecOn with
  | nil => exact List.Pairwise.nil
  | append_singleton cells c ih =>
    rw [openPlaces_snoc, List.pairwise_append]
    refine ⟨ih, ?_, ?_⟩
    · cases c.symbol? <;> simp
    · rintro ⟨a, s⟩ ha ⟨b, t⟩ hb
      obtain ⟨n, c', hn, -, rfl⟩ := mem_openPlaces_iff.mp ha
      have hlt := (List.getElem?_eq_some_iff.mp hn).1
      obtain ⟨t', -, he⟩ := Option.map_eq_some_iff.mp (Option.mem_toList.mp hb)
      obtain ⟨rfl, -⟩ := Prod.mk.inj he
      show base + (n : Int) < base + (cells.length : Int)
      omega

/-! ## Words without addresses of symbols -/

/-- What an address operand holds before the symbols have addresses: its number, or zero. -/
def Operand.placeholder? (operand : String) : Option Int :=
  some ((number? operand).getD 0)

theorem Cell.resolve?_placeholder {c : Cell} (h : c.Spelled) :
    c.resolve? Operand.placeholder? = some c.placeholder := by
  cases c with
  | word value => rfl
  | label name => simp [resolve?, placeholder, Operand.placeholder?, h.2]
  | literal token value =>
    simp [resolve?, placeholder, Operand.placeholder?, Operand.number?_of_startsWith h.1]

theorem Cell.placeholder_of_symbol? {c : Cell} {s : String} (h : c.symbol? = some s) :
    c.placeholder = 0 := by
  cases c with
  | word value => cases h
  | label name | literal token value => rfl

/-- The words of a row before the symbols have addresses are what its cells hold then. -/
theorem Row.getElem?_words_placeholder {r : Row} (h : r.complaint? = none) {k : Nat}
    (hk : k < r.size) : ∃ c, r.cells[k]? = some c ∧
      (r.words Operand.placeholder?)[k]? = some (some c.placeholder) := by
  have numbers : ∀ operand n, Operand.number? operand = some n →
      Operand.placeholder? operand = some n := by
    intro operand n hn
    simp [Operand.placeholder?, hn]
  have hc := List.getElem?_eq_getElem (Row.length_cells h ▸ hk)
  refine ⟨_, hc, ?_⟩
  rw [(Row.words_eq numbers h).1, List.getElem?_map, hc, Option.map_some,
    Cell.resolve?_placeholder (Row.spelled_of_mem_cells (List.mem_of_getElem? hc))]

namespace Workspace

/-- After the words of a draft are stored each cell's place holds its placeholder. -/
theorem get?_store {w : Workspace} {d : Draft} (hb : 0 ≤ w.base) {n i : Nat} {c : Cell}
    (hc : d.cells.toList[n]? = some (c, i)) :
    (w.store d).memory.get? (w.base + n) = some c.placeholder := by
  refine w.memory.get?_load_add hb ?_
  rw [Draft.words, List.getElem?_map, hc]
  rfl

/-- The pool of literals lies behind the cells and leaves them as they are. -/
theorem get?_withDraft {w : Workspace} {d : Draft} (hb : 0 ≤ w.base) (hd : d.base = w.base)
    {n i : Nat} {c : Cell} (hc : d.cells.toList[n]? = some (c, i)) :
    (w.withDraft d).memory.get? (w.base + n) = some c.placeholder := by
  have hn := (List.getElem?_eq_some_iff.mp hc).1
  rw [Array.length_toList] at hn
  have haddress : (w.store d).address = w.base + d.cells.size := by rw [← hd]; rfl
  rw [withDraft, storePool, ← get?_store hb hc]
  exact Memory.get?_load_of_outside _ (.inl (by omega)) (.inl (by omega))

/-! ## How an assembly ends -/

/-- An assembly of `w` that has ended in `w'` since a row is refused. -/
structure RefusedRow (w : Workspace) (i : Nat) (r : Row) (c : Complaint) (w' : Workspace) :
    Prop where
  /-- It is the row with the index. -/
  row : w.rows[i]? = some r
  /-- It is refused for anything else than an undefined label, and for a number only if it has a
  decimal numeral with too many digits. -/
  objection : r.Objection c
  /-- The first pass accepts the rows before it. -/
  before : ({ w with rows := w.rows.take i } : Workspace).layOut.1 = .ok ()
  /-- Whatever rows follow, the program is refused for the same reason. -/
  behind : ∀ rest, ({ w with rows := w.rows.take (i + 1) ++ rest } : Workspace).assemble.1 =
    .error (.refused (r.diagnostic i c))
  /-- The words of the rows before it are in memory, with zeros for the symbols. -/
  words : ∀ j < i, ∀ s, w.rows[j]? = some s → ∀ k : Nat, k < s.size → ∃ x,
    (s.words Operand.placeholder?)[k]? = some (some x) ∧
      w'.memory.get? (w.rowAddress j + k) = some x
  /-- At most two words of the row itself are in memory. -/
  address : ∃ m : Nat, m ≤ 2 ∧ w'.address = w.rowAddress i + m
  /-- Nothing else in memory has changed. -/
  outside : ∀ a, a < w.base ∨ w'.address ≤ a → w'.memory.get? a = w.memory.get? a
  /-- No literal has an address. -/
  literals : w'.literals = ∅
  /-- No reference is resolved. -/
  reference : ∀ a s, (a, s) ∈ w'.references → w'.memory.get? a = some 0

/-- An assembly of `w` that has ended in `w'` since a symbol at an address is undefined. -/
structure UndefinedLabel (w : Workspace) (a : Int) (s : String) (w' : Workspace) : Prop where
  /-- The first pass accepts all rows. -/
  accepted : w.layOut.1 = .ok ()
  /-- The labels are those of the rows. -/
  labels_iff : ∀ name, name ∈ w'.labels ↔ name ≠ "" ∧ ∃ r ∈ w.rows, r.label = name
  /-- The literals are those that the rows use. -/
  literals_iff : ∀ token, token ∈ w'.literals ↔ token ∈ w.tokens
  /-- There is a reference to the symbol at the address. -/
  reference : (a, s) ∈ w'.references
  /-- The symbol is neither a label nor a literal of the program. -/
  undefined : s ∉ w'.labels ∧ s ∉ w'.literals
  /-- References at lower addresses are to symbols that are defined, and are resolved. -/
  before : ∀ b t, (b, t) ∈ w'.references → b < a → (t ∈ w'.labels ∨ t ∈ w'.literals) ∧
    w'.memory.get? b = w'.symbols[t]?
  /-- This reference and those at higher addresses are not. -/
  behind : ∀ b t, (b, t) ∈ w'.references → a ≤ b → w'.memory.get? b = some 0

/-- How an assembly ends at a base that is not below zero. -/
inductive Outcome (w : Workspace) : Prop
  /-- The program is assembled. -/
  | assembled {map : AddressMap} {w' : Workspace} (h : w.assemble = (.ok map, w'))
  /-- A row is refused with an error of the assembler's own, which names the row's line. -/
  | refusedRow {i : Nat} {r : Row} {c : Complaint} {w' : Workspace} (hk : c.kind ≠ .number)
      (h : w.assemble = (.error (.refused ⟨c, i + 1, r.text⟩), w')) (hr : w.RefusedRow i r c w')
  /-- A row has a decimal numeral with too many digits, which is no error of the assembler's own and
  names no line. -/
  | overlongNumber {i digits : Nat} {r : Row} {w' : Workspace} (hd : r.HasOverlong digits)
      (h : w.assemble = (.error (.refused { complaint := .overlongNumber digits }), w'))
      (hr : w.RefusedRow i r (.overlongNumber digits) w')
  /-- A label is undefined. -/
  | undefinedLabel {a : Int} {s : String} {w' : Workspace}
      (h : w.assemble = (.error (.refused { complaint := .undefinedLabel s a }), w'))
      (hu : w.UndefinedLabel a s w')

/-- How an assembly ends at a base below zero. -/
structure BelowZero (w : Workspace) : Prop where
  /-- The program is assembled exactly if it is at zero, and no row takes a word. -/
  isOk_iff : w.assemble.1.isOk = true ↔
    ({ w with base := 0 } : Workspace).assemble.1.isOk = true ∧ ∀ r ∈ w.rows, r.size = 0
  /-- Memory is as it was. -/
  memory : w.assemble.2.memory = w.memory

/-! ## The first pass refuses a row -/

theorem layOut_of_ok {w : Workspace} {d : Draft} (h : Draft.ofRows w.base w.rows = (.ok (), d)) :
    w.layOut.1 = .ok () := by
  simp only [layOut, h]

/-- What the first pass leaves behind when it refuses a row. -/
theorem refusedRow_of_stopped {w : Workspace} (hb : 0 ≤ w.base) {before after : List Row}
    {row : Row} {c : Complaint} {cells : List Cell} {d e : Draft}
    (hrows : w.rows = before ++ row :: after) (hc : row.Objection c)
    (hd : Draft.ofRows w.base before = (.ok (), d))
    (he : d.addRow row before.length = (.error (.refused (row.diagnostic before.length c)), e))
    (hs : Draft.Stopped w.base before cells e) :
    w.RefusedRow before.length row c (w.store e) := by
  have hlaid := Draft.laidOut_of_ofRows hd
  have htake : w.rows.take before.length = before := by rw [hrows, List.take_left']; rfl
  have hplace {j : Nat} (hj : j ≤ before.length) : w.rowAddress j = w.base + offset before j := by
    have hsound : ∀ r ∈ w.rows.take j, r.complaint? = none := by
      intro r hr
      rw [hrows, List.take_append_of_le_length hj] at hr
      exact hlaid.sound r (List.mem_of_mem_take hr)
    rw [rowAddress_eq_of_sound hsound, hrows, offset_append_of_le hj]
  have hlength : e.cells.size = offset before before.length + cells.length := by
    rw [← Array.length_toList, hs.cells_eq, List.length_append, List.length_map,
      length_programCells]
  constructor
  case row => rw [hrows]; simp
  case objection => exact hc
  case before => exact layOut_of_ok (d := d) (by rw [htake]; exact hd)
  case behind =>
    intro rest
    have hsplit : w.rows.take (before.length + 1) ++ rest = before ++ row :: rest := by
      rw [hrows, List.take_length_add_append]
      simp
    have hstop : Draft.ofRows w.base (w.rows.take (before.length + 1) ++ rest) =
        (.error (.refused (row.diagnostic before.length c)), e) := by
      rw [hsplit]
      exact Draft.addRows_eq_error_iff.mpr
        ⟨before, row, rest, d, rfl, hd, by rwa [Nat.zero_add]⟩
    exact congrArg Prod.fst (assemble_of_error hstop)
  case words =>
    intro j hj s hr k hsize
    rw [hrows, List.getElem?_append_left hj] at hr
    obtain ⟨c, hc, hx⟩ :=
      Row.getElem?_words_placeholder (hlaid.sound s (List.mem_of_getElem? hr)) hsize
    refine ⟨_, hx, ?_⟩
    have hcell : (programCells before)[offset before j + k]? = some (c, j) :=
      getElem?_programCells.mpr ⟨s, k, hr, hc, rfl⟩
    have hstored : e.cells.toList[offset before j + k]? = some (c, j) := by
      rw [hs.cells_eq, List.getElem?_append_left (List.getElem?_eq_some_iff.mp hcell).1, hcell]
    rw [hplace (Nat.le_of_lt hj), Int.add_assoc, ← Int.natCast_add]
    exact get?_store hb hstored
  case address =>
    refine ⟨cells.length, hs.few, ?_⟩
    show e.address = _
    rw [Draft.address, hs.base_eq, hplace (Nat.le_refl _), hlength]
    omega
  case outside =>
    intro a ha
    refine Memory.get?_load_of_outside _ (.inl hb) ?_
    have haddress : (w.store e).address = w.base + e.words.length := by
      show e.address = _
      rw [Draft.address, hs.base_eq, Draft.words, List.length_map, Array.length_toList]
    rwa [haddress] at ha
  case literals => rfl
  case reference =>
    intro a s hm
    have hm : (a, s) ∈ e.references := hm
    rw [Draft.references_of_refused hs.refused_eq, hs.base_eq, mem_openPlaces_iff] at hm
    obtain ⟨n, c, hc, hsymbol, rfl⟩ := hm
    rw [List.getElem?_map, Option.map_eq_some_iff] at hc
    obtain ⟨⟨c, i⟩, hc, rfl⟩ := hc
    rw [get?_store hb hc, Cell.placeholder_of_symbol? hsymbol]

/-! ## The second pass meets an undefined label -/

/-- What the second pass leaves behind when it meets an undefined symbol. -/
theorem undefinedLabel_of_resolveDraft {w : Workspace} (hb : 0 ≤ w.base) {d : Draft}
    (hd : Draft.ofRows w.base w.rows = (.ok (), d)) {f : Failure}
    (hf : (w.resolveDraft d).1 = .error f) :
    ∃ a s, f = .refused { complaint := .undefinedLabel s a } ∧
      w.UndefinedLabel a s { w.withDraft d with memory := (w.resolveDraft d).2 } := by
  have hlaid := Draft.laidOut_of_ofRows hd
  have hrefs : (w.withDraft d).references = openPlaces w.base ((programCells w.rows).map (·.1)) :=
    hlaid.references_eq
  have hpairs := pairwise_openPlaces w.base ((programCells w.rows).map (·.1))
  obtain ⟨before, a, s, after, hsplit, hs, rfl, hok⟩ :=
    exists_of_resolve_eq_error (fun r hr => openPlaces_nonneg hb (hrefs ▸ hr))
      (Prod.ext hf rfl : w.resolveDraft d = (.error f, (w.resolveDraft d).2))
  rw [← hrefs, hsplit, List.pairwise_append, List.pairwise_cons] at hpairs
  obtain ⟨hbefore, ⟨hafter, -⟩, hcross⟩ := hpairs
  refine ⟨a, s, rfl, ?_⟩
  constructor
  case accepted => exact layOut_of_ok hd
  case labels_iff =>
    intro name
    rw [← List.mem_map]
    exact hlaid.mem_labels_iff name
  case literals_iff =>
    intro token
    rw [tokens_of_laidOut hlaid]
    exact mem_placeLiterals_iff (hlaid.pool_eq ▸ nodup_poolOf _)
  case reference =>
    show (a, s) ∈ (w.withDraft d).references
    rw [hsplit]
    simp
  case undefined =>
    rw [getElem?_symbols, Option.or_eq_none_iff] at hs
    simp only [Std.ExtTreeMap.mem_iff_isSome_getElem?]
    exact ⟨by simp [hs.2], by simp [hs.1]⟩
  case before =>
    intro b t hm hlt
    -- the reference is resolved before, since those behind go to higher addresses
    have hm : (b, t) ∈ before ++ (a, s) :: after := hsplit ▸ hm
    have hmem : (b, t) ∈ before := by
      rcases List.mem_append.mp hm with hm | hm
      · exact hm
      rcases List.mem_cons.mp hm with he | hm
      · obtain ⟨rfl, -⟩ := Prod.mk.inj he
        exact absurd hlt (Int.lt_irrefl b)
      · exact absurd (hafter (b, t) hm) (Int.not_lt.mpr (Int.le_of_lt hlt))
    obtain ⟨-, target, ht⟩ := exists_of_resolve_eq_ok hok hmem
    constructor
    · have hsome : (w.withDraft d).symbols[t]?.isSome = true := ht ▸ rfl
      rw [getElem?_symbols, Option.isSome_or, Bool.or_comm, Bool.or_eq_true] at hsome
      simpa only [Std.ExtTreeMap.mem_iff_isSome_getElem?] using hsome
    · show (w.resolveDraft d).2.get? b = (w.withDraft d).symbols[t]?
      rw [get?_resolve hok, lastReference?_of_mem hbefore hmem, Option.bind_some, ht]
      rfl
  case behind =>
    intro b t hm hle
    have houtside : ∀ r ∈ before, r.1 ≠ b := by
      rintro ⟨x, u⟩ hr rfl
      exact Int.not_lt.mpr hle (hcross (x, u) hr (a, s) List.mem_cons_self)
    have hsame : (resolve (w.withDraft d).memory (w.withDraft d).symbols before).2.get? b =
        (w.withDraft d).memory.get? b := get?_resolve_of_outside houtside _
    rw [hok] at hsame
    show (w.resolveDraft d).2.get? b = some 0
    rw [hsame]
    have hm : (b, t) ∈ (w.withDraft d).references := hm
    rw [hrefs, mem_openPlaces_iff] at hm
    obtain ⟨n, c, hc, hsymbol, rfl⟩ := hm
    rw [List.getElem?_map, Option.map_eq_some_iff] at hc
    obtain ⟨⟨c, i⟩, hc, rfl⟩ := hc
    rw [get?_withDraft hb hlaid.base_eq (hlaid.cells_eq ▸ hc), Cell.placeholder_of_symbol? hsymbol]

/-! ## Below zero -/

theorem exists_ofRows_of_isOk {w : Workspace} (h : w.assemble.1.isOk = true) :
    ∃ d, Draft.ofRows w.base w.rows = (.ok (), d) := by
  rcases hd : Draft.ofRows w.base w.rows with ⟨_ | _, d⟩
  · rw [assemble_of_error hd] at h
    cases h
  · exact ⟨d, rfl⟩

/-- A program without words has no references either, so it is assembled if its rows are
accepted. -/
theorem isOk_of_ofRows {w : Workspace} {d : Draft} (hd : Draft.ofRows w.base w.rows = (.ok (), d))
    (hc : ∀ r ∈ w.rows, r.cells = []) : w.assemble.1.isOk = true := by
  have hrefs : (w.withDraft d).references = [] := by
    have hcells : programCells w.rows = [] := programCells_eq_nil_iff.mpr hc
    refine (Draft.laidOut_of_ofRows hd).references_eq.trans ?_
    rw [hcells]
    rfl
  have hr : (w.resolveDraft d).1 = .ok () := by
    rw [resolveDraft, hrefs]
    rfl
  obtain ⟨w', hw', -⟩ := assemble_of_resolveDraft hd hr
  rw [hw']
  rfl

theorem exists_ofRows_of_cells {base base' : Int} {rows : List Row} {d : Draft}
    (hplace : 0 ≤ base' ∨ ∀ r ∈ rows, r.cells = []) (hd : Draft.ofRows base rows = (.ok (), d)) :
    ∃ d', Draft.ofRows base' rows = (.ok (), d') := by
  have hempty := Draft.Relocated.empty (base' - base) base
  rw [show base + (base' - base) = base' by omega] at hempty
  exact hempty.addRows_eq_ok (by simpa [Draft.address] using hplace) hd

theorem belowZero_of_neg {w : Workspace} (hb : w.base < 0) : w.BelowZero := by
  constructor
  case isOk_iff =>
    constructor
    · intro h
      obtain ⟨d, hd⟩ := exists_ofRows_of_isOk h
      have hlaid := Draft.laidOut_of_ofRows hd
      have hcells : ∀ r ∈ w.rows, r.cells = [] :=
        programCells_eq_nil_iff.mp (hlaid.place.resolve_right (Int.not_le.mpr hb))
      obtain ⟨d', hd'⟩ : ∃ d', Draft.ofRows 0 w.rows = (.ok (), d') :=
        exists_ofRows_of_cells (.inl (Int.le_refl 0)) hd
      refine ⟨isOk_of_ofRows hd' hcells, ?_⟩
      intro r hr
      rw [← Row.length_cells (hlaid.sound r hr), hcells r hr]
      rfl
    · rintro ⟨h, hsize⟩
      obtain ⟨d, hd⟩ := exists_ofRows_of_isOk h
      have hsound := (Draft.laidOut_of_ofRows hd).sound
      have hcells : ∀ r ∈ w.rows, r.cells = [] := by
        intro r hr
        exact List.eq_nil_of_length_eq_zero ((Row.length_cells (hsound r hr)).trans (hsize r hr))
      obtain ⟨d', hd'⟩ := exists_ofRows_of_cells (.inr hcells) hd
      exact isOk_of_ofRows hd' hcells
  case memory =>
    apply Memory.ext
    intro a
    refine w.get?_assemble_of_outside ?_
    by_contra hin
    -- an assembly that wrote a word would have written one at the base
    have hwritten := w.isSome_get?_assemble (Int.le_refl w.base) (by omega)
    obtain ⟨n, hn⟩ := Int.eq_negSucc_of_lt_zero hb
    rw [hn] at hwritten
    cases hwritten

/-- **Refusals.** At a base that is not below zero a program is assembled, or refused for one row,
or for a number in one row that has too many digits, or for one undefined label, and what is left
behind is known; below zero a program is assembled only if it has no words, and memory is left as
it was. -/
theorem outcome_of_base (w : Workspace) :
    (0 ≤ w.base → w.Outcome) ∧ (w.base < 0 → w.BelowZero) := by
  refine ⟨?_, belowZero_of_neg⟩
  intro hb
  rcases hd : Draft.ofRows w.base w.rows with ⟨f | ⟨⟩, e⟩
  · -- the first pass stops in a row
    obtain ⟨before, row, after, d, hrows, hbefore, hrow⟩ := Draft.addRows_eq_error_iff.mp hd
    rw [Nat.zero_add] at hrow
    obtain ⟨c, cells, rfl, hc, hs⟩ :=
      Draft.stopped_of_addRow (Draft.laidOut_of_ofRows hbefore) hb hrow
    have hassemble := assemble_of_error hd
    have hr := refusedRow_of_stopped hb hrows hc hbefore hrow hs
    by_cases hk : c.kind = .number
    · obtain ⟨digits, rfl, ho⟩ := hc.overlong hk
      rw [Row.diagnostic_of_number hk] at hassemble
      exact .overlongNumber ho hassemble hr
    · rw [Row.diagnostic_of_ne hk] at hassemble
      exact .refusedRow hk hassemble hr
  · cases hr : (w.resolveDraft e).1 with
    | ok u =>
      obtain ⟨w', hw', -⟩ := assemble_of_resolveDraft hd hr
      exact .assembled hw'
    | error f =>
      obtain ⟨a, s, rfl, hu⟩ := undefinedLabel_of_resolveDraft hb hd hr
      refine .undefinedLabel ?_ hu
      rw [assemble_of_ok hd, hr]
      rfl

/-- A program whose second row is refused for its last operand, behind a reference that would be
undefined. -/
def refusedCall : Workspace where
  base := 4
  rows := [⟨"A", "LD", ["GR1", "B"]⟩, ⟨"", "IN", ["A", "'N'"]⟩, ⟨"", "LD", []⟩]

theorem outcome_refusedCall :
    (0 ≤ refusedCall.base ∧ refusedCall.assemble.1.isOk = false ∧ refusedCall.Outcome) ∧
      ({ refusedCall with base := -4 } : Workspace).base < 0 ∧
        ({ refusedCall with base := -4 } : Workspace).BelowZero :=
  ⟨⟨by decide, by decide +kernel, (outcome_of_base refusedCall).1 (by decide)⟩, by decide,
    (outcome_of_base { refusedCall with base := -4 }).2 (by decide)⟩

/-- A program that defines a constant with too many digits behind rows that are accepted is refused
for them. -/
theorem assemble_overlong {before : List Row} {d : Draft}
    (hbefore : Draft.ofRows 0 before = (.ok (), d)) {operand : String} {digits : Nat}
    (ho : Operand.overlong? operand = some digits) :
    ({ rows := before ++ [⟨"", "DC", [operand]⟩] } : Workspace).assemble.1 =
      .error (.refused { complaint := .overlongNumber digits }) := by
  have hdirective : Row.directive? ⟨"", "DC", [operand]⟩ = some .constant := by
    show Directive.ofName? (Text.upper "DC") = some .constant
    decide
  have hg : Row.given ⟨"", "DC", [operand]⟩ = [operand] := by
    refine List.filter_cons_of_pos (decide_eq_true ?_)
    rintro rfl
    cases ho
  have hc : Row.complaint? ⟨"", "DC", [operand]⟩ = some (.overlongNumber digits) := by
    rw [Row.complaint?, Row.items_of_directive hdirective, hg, Directive.items, constantItem,
      Operand.readable_of_some ho]
    rfl
  have haddress : 0 ≤ d.address := by
    rw [(Draft.laidOut_of_ofRows hbefore).address_eq]
    omega
  obtain ⟨e, he⟩ : ∃ e, Draft.ofRows 0 (before ++ [⟨"", "DC", [operand]⟩]) =
      (.error (.refused { complaint := .overlongNumber digits }), e) := by
    rw [Draft.ofRows] at hbefore ⊢
    rw [Draft.addRows_append, hbefore]
    simp only [Draft.addRows, Draft.addRow_of_nonneg haddress, hc]
    exact ⟨_, rfl⟩
  exact congrArg Prod.fst (assemble_of_error he)

/-- A program with one constant: as many nines as are one digit too many. -/
def overlongConstant : Workspace where
  rows := [⟨"", "DC", [String.ofList (List.replicate 4301 '9')]⟩]

/-- At a base that is not below zero a program need not be assembled or refused with an error of the
assembler's own: there are numbers that cannot be read. -/
theorem refused_overlongConstant :
    overlongConstant.base = 0 ∧
      overlongConstant.assemble.1 = .error (.refused { complaint := .overlongNumber 4301 }) ∧
        Complaint.kind (.overlongNumber 4301) = .number := by
  obtain ⟨d, hd⟩ : ∃ d, Draft.ofRows 0 [] = (.ok (), d) := ⟨_, rfl⟩
  have hoverlong : Operand.overlong? (String.ofList (List.replicate 4301 '9')) = some 4301 :=
    Operand.overlong?_replicate (by decide) (by decide)
  exact ⟨rfl, assemble_overlong hd hoverlong, rfl⟩

end Workspace

end WordMachine
