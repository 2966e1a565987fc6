import WordMachine.Proofs.ObjectCode

/-!
# Relocation

A program can be assembled at any base that is not below zero. Moving the base moves every address
by the same distance: those of labels, of pool words and of the places that wait for symbols. A
word moves with them if it is the address of a symbol, and stays as it is otherwise.

## Main definitions

* `Complaint.relocate`, `Diagnostic.relocate`: a complaint with the address that it shows moved
* `Draft.Relocated`: two drafts of one program at two bases
* `Workspace.Relocated`: two assembled programs at two bases

## Main results

* `Draft.Relocated.addRows`: the first pass does the same at both bases
* `Workspace.assemble_relocated`: a program is assembled at both bases or at neither, with the same
  words and the same failures up to the distance
-/

namespace WordMachine

/-! ## Diagnostics -/

/-- A complaint with the address that it shows moved. -/
def Complaint.relocate (δ : Int) : Complaint → Complaint
  | undefinedLabel label address => undefinedLabel label (address + δ)
  | c => c

/-- A diagnostic with the address that it shows moved. -/
def Diagnostic.relocate (δ : Int) (d : Diagnostic) : Diagnostic :=
  { d with complaint := d.complaint.relocate δ }

/-- Only a complaint about an undefined label shows an address. -/
theorem Complaint.relocate_of_kind {c : Complaint} (h : c.kind ≠ .reference) (δ : Int) :
    c.relocate δ = c := by
  cases c with
  | undefinedLabel label address => exact absurd rfl h
  | _ => rfl

/-- A diagnostic of the first pass shows no address. -/
theorem Row.relocate_diagnostic {c : Complaint} (h : c.kind ≠ .reference) (δ : Int) (r : Row)
    (index : Int) : (r.diagnostic index c).relocate δ = r.diagnostic index c := by
  have hc := complaint_diagnostic r index c
  generalize r.diagnostic index c = d at hc ⊢
  subst hc
  rw [Diagnostic.relocate, Complaint.relocate_of_kind h]

theorem mem_of_complaintOf? {items : List Item} {c : Complaint} (h : complaintOf? items = some c) :
    .error c ∈ items := by
  induction items with
  | nil => cases h
  | cons item items ih =>
    cases item with
    | error c' => exact Option.some.inj h ▸ List.mem_cons_self
    | ok cell => exact List.mem_cons_of_mem _ (ih h)

theorem Row.fits_of_complaint? {r : Row} {c : Complaint} (h : r.complaint? = some c) :
    c.Fits r.given := by
  have hp := r.plain_of_mem_items (mem_of_complaintOf? h)
  generalize hi : (.error c : Item) = item at hp
  cases hp with
  | word value => cases hi
  | address hm => exact Cell.fits_of_ofAddress hm hi.symm
  | complaint hc => exact Except.error.inj hi ▸ hc

/-- What may be complained about at a row: no undefined label, and a number only if the row has a
decimal numeral with too many digits. -/
structure Row.Objection (r : Row) (c : Complaint) : Prop where
  kind_ne : c.kind ≠ .reference
  overlong : c.kind = .number → ∃ digits, c = .overlongNumber digits ∧ r.HasOverlong digits

theorem Row.objection_of_complaint? {r : Row} {c : Complaint} (h : r.complaint? = some c) :
    r.Objection c := by
  have hfits := fits_of_complaint? h
  refine ⟨hfits.kind_ne, ?_⟩
  intro hk
  cases hfits with
  | @overlong operand digits hm ho =>
    simp only [Operand.HoldsOverlong, Operand.overlong?_eq_some_iff] at ho
    exact ⟨digits, rfl, .inr ⟨operand, hm, ho⟩⟩
  | other _ hnumber => exact absurd hk hnumber

/-! ## The first pass -/

namespace Draft

theorem objection_of_labelComplaint? {d : Draft} {row : Row} {c : Complaint}
    (h : d.labelComplaint? row = some c) : row.Objection c := by
  unfold labelComplaint? at h
  split at h
  · cases h
  · split at h
    · exact Option.some.inj h ▸ ⟨nofun, nofun⟩
    · split at h
      · next digits ho =>
        refine Option.some.inj h ▸ ⟨nofun, fun _ => ⟨digits, rfl, .inl ?_⟩⟩
        exact Operand.overlong?_eq_some_iff.mp ho
      · split at h
        · exact Option.some.inj h ▸ ⟨nofun, nofun⟩
        · cases h

theorem exists_of_addItems_refused {d e : Draft} {row : Row} {index : Nat} {items : List Item}
    {g : Diagnostic} (h : d.addItems row index items = (.error (.refused g), e)) :
    ∃ c, g = row.diagnostic index c ∧ complaintOf? items = some c := by
  induction items generalizing d with
  | nil => cases h
  | cons item items ih =>
    cases item with
    | error c =>
      obtain ⟨hg, -⟩ := Prod.mk.inj h
      exact ⟨c, (Failure.refused.inj (Except.error.inj hg)).symm, rfl⟩
    | ok cell =>
      rw [addItems] at h
      split at h
      · cases h
      · exact ih h

/-- A row that is refused is refused with a diagnostic of its own, at any base. -/
theorem exists_of_addRow_refused {d e : Draft} {row : Row} {index : Nat} {g : Diagnostic}
    (h : d.addRow row index = (.error (.refused g), e)) :
    ∃ c, g = row.diagnostic index c ∧ row.Objection c := by
  rw [addRow, bindLabel_eq] at h
  cases hl : d.labelComplaint? row with
  | some c =>
    rw [hl] at h
    obtain ⟨hg, -⟩ := Prod.mk.inj h
    exact ⟨c, (Failure.refused.inj (Except.error.inj hg)).symm, objection_of_labelComplaint? hl⟩
  | none =>
    rw [hl] at h
    obtain ⟨c, hg, hc⟩ := exists_of_addItems_refused h
    exact ⟨c, hg, Row.objection_of_complaint? hc⟩

/-- Two drafts of one program whose bases differ by a distance. -/
structure Relocated (δ : Int) (d e : Draft) : Prop where
  base : e.base = d.base + δ
  cells : e.cells = d.cells
  labels : ∀ name : String, e.labels[name]? = d.labels[name]?.map (· + δ)
  start : e.start = d.start.map (· + δ)
  entry : e.entry = d.entry

namespace Relocated

variable {δ : Int} {d e : Draft}

theorem empty (δ base : Int) : Relocated δ { base } { base := base + δ } where
  base := rfl
  cells := rfl
  labels := by simp
  start := rfl
  entry := rfl

theorem address (h : Relocated δ d e) : e.address = d.address + δ := by
  rw [Draft.address, Draft.address, h.base, h.cells]
  omega

theorem pool (h : Relocated δ d e) : e.pool = d.pool := by
  rw [Draft.pool, Draft.pool, h.cells]

theorem labelComplaint? (h : Relocated δ d e) (row : Row) :
    e.labelComplaint? row = d.labelComplaint? row := by
  -- the same labels are bound
  have hm : row.label ∈ e.labels ↔ row.label ∈ d.labels := by
    rw [Std.ExtTreeMap.mem_iff_isSome_getElem?, Std.ExtTreeMap.mem_iff_isSome_getElem?, h.labels,
      Option.isSome_map]
  simp only [Draft.labelComplaint?, hm]

/-- One more row keeps two drafts of one program alike. -/
theorem extend (h : Relocated δ d e) (row : Row) (index : Nat) :
    Relocated δ (d.extend row index) (e.extend row index) where
  base := by rw [base_extend, base_extend, h.base]
  cells := by
    rw [← Array.toList_inj, cells_extend, cells_extend, h.cells]
  labels := by
    intro name
    rw [labels_extend, labels_extend, h.address]
    split
    · exact h.labels name
    · rw [Std.ExtTreeMap.getElem?_insert, Std.ExtTreeMap.getElem?_insert, h.labels]
      split <;> rfl
  start := by
    rw [start_extend, start_extend, h.address, h.start]
    split <;> rfl
  entry := by rw [entry_extend, entry_extend, h.entry]

/-- At addresses that are not below zero a row is refused at both bases or at neither. -/
theorem addRow (h : Relocated δ d e) (hd : 0 ≤ d.address) (he : 0 ≤ e.address) (row : Row)
    (index : Nat) :
    (e.addRow row index).1 = (d.addRow row index).1 ∧
      Relocated δ (d.addRow row index).2 (e.addRow row index).2 := by
  rw [addRow_of_nonneg hd, addRow_of_nonneg he, h.labelComplaint?]
  cases d.labelComplaint? row with
  | some c => exact ⟨rfl, h⟩
  | none => exact ⟨rfl, h.extend row index⟩

end Relocated

/-- A row that is added moves the next address on, or leaves it. -/
theorem address_le_address_addRow {d : Draft} (h : 0 ≤ d.address) (row : Row) (index : Nat) :
    d.address ≤ (d.addRow row index).2.address := by
  rw [addRow_of_nonneg h]
  cases d.labelComplaint? row with
  | some c => exact Int.le_refl _
  | none =>
    have hsize := congrArg List.length (d.cells_extend row index)
    rw [Array.length_toList, List.length_append, Array.length_toList] at hsize
    simp only [address, base_extend, hsize]
    omega

/-- The first pass ends alike at both bases. -/
theorem Relocated.addRows {δ : Int} {d e : Draft} (h : Relocated δ d e) (hd : 0 ≤ d.address)
    (he : 0 ≤ e.address) (index : Nat) (rows : List Row) :
    (e.addRows index rows).1 = (d.addRows index rows).1 ∧
      Relocated δ (d.addRows index rows).2 (e.addRows index rows).2 := by
  -- Induction on the rows: the next addresses stay at or above zero.
  induction rows generalizing d e index with
  | nil => exact ⟨rfl, h⟩
  | cons row rows ih =>
    obtain ⟨hfst, hsnd⟩ := h.addRow hd he row index
    have hd' := Int.le_trans hd (address_le_address_addRow hd row index)
    have he' := Int.le_trans he (address_le_address_addRow he row index)
    rw [Draft.addRows, Draft.addRows]
    generalize d.addRow row index = p at hfst hsnd hd' ⊢
    generalize e.addRow row index = q at hfst hsnd he' ⊢
    obtain ⟨_ | _, d'⟩ := p <;> obtain ⟨_ | _, e'⟩ := q <;> cases hfst
    · -- the row is refused at both bases
      exact ⟨rfl, hsnd⟩
    · exact ih hsnd hd' he' (index + 1)

/-- A row is refused for its label, which leaves the draft as it was, or for what it makes. -/
theorem addRow_eq_error {d e : Draft} (hd : 0 ≤ d.address) {row : Row} {index : Nat} {f : Failure}
    (h : d.addRow row index = (.error f, e)) :
    ∃ c, f = .refused (row.diagnostic index c) ∧ row.Objection c ∧
      (e = d ∨ row.complaint? = some c ∧ e = d.extend row index) := by
  rw [addRow_of_nonneg hd] at h
  cases hl : d.labelComplaint? row with
  | some c =>
    simp only [hl] at h
    obtain ⟨hf, rfl⟩ := Prod.mk.inj h
    exact ⟨c, (Except.error.inj hf).symm, objection_of_labelComplaint? hl, .inl rfl⟩
  | none =>
    simp only [hl] at h
    cases hc : row.complaint? with
    | some c =>
      simp only [hc, Option.elim_some] at h
      obtain ⟨hf, rfl⟩ := Prod.mk.inj h
      exact ⟨c, (Except.error.inj hf).symm, Row.objection_of_complaint? hc, .inr ⟨rfl, rfl⟩⟩
    | none =>
      simp only [hc, Option.elim_none] at h
      cases h

/-- What the first pass refuses, it refuses for another reason than an undefined label. -/
theorem exists_of_addRows_eq_error {d d' : Draft} (hd : 0 ≤ d.address) {index : Nat}
    {rows : List Row} {f : Failure} (h : d.addRows index rows = (.error f, d')) :
    ∃ (row : Row) (i : Nat) (c : Complaint),
      f = .refused (row.diagnostic i c) ∧ c.kind ≠ .reference := by
  induction rows generalizing d index with
  | nil => cases h
  | cons row rows ih =>
    have hnext := Int.le_trans hd (address_le_address_addRow hd row index)
    rw [Draft.addRows] at h
    split at h
    · next d₁ h₁ =>
      rw [h₁] at hnext
      exact ih hnext h
    · next h₁ =>
      obtain ⟨hf, -⟩ := Prod.mk.inj h
      obtain ⟨c, hc, hk, -⟩ := addRow_eq_error hd h₁
      exact ⟨row, index, c, (Except.error.inj hf).symm.trans hc, hk.kind_ne⟩

end Draft

/-! ## The second pass -/

theorem openPlaces_relocated (δ base : Int) (cells : List Cell) :
    openPlaces (base + δ) cells = (openPlaces base cells).map fun r => (r.1 + δ, r.2) := by
  rw [openPlaces, openPlaces, List.map_filterMap]
  congr 1
  funext p
  obtain ⟨c, i⟩ := p
  cases hs : c.symbol? with
  | none => simp [hs]
  | some s => simp [hs, Int.add_right_comm]

/-- Pool words move with the pool. -/
theorem placeLiterals_relocated {δ : Int} {symbols symbols' : SymbolTable}
    (h : ∀ s : String, symbols'[s]? = symbols[s]?.map (· + δ)) (address : Int)
    (pool : List Literal) (s : String) :
    (Workspace.placeLiterals (address + δ) pool symbols')[s]? =
      (Workspace.placeLiterals address pool symbols)[s]?.map (· + δ) := by
  induction pool generalizing address symbols symbols' with
  | nil => exact h s
  | cons literal pool ih =>
    rw [Workspace.placeLiterals, Workspace.placeLiterals,
      show address + δ + 1 = address + 1 + δ by omega]
    refine ih ?_ (address + 1)
    intro t
    rw [Std.ExtTreeMap.getElem?_insert, Std.ExtTreeMap.getElem?_insert, h]
    split <;> rfl

/-- References are resolved at both places or at neither. -/
theorem resolve_relocated {δ : Int} {symbols symbols' : SymbolTable}
    (h : ∀ s : String, symbols'[s]? = symbols[s]?.map (· + δ))
    {references references' : List (Int × String)}
    (href : references' = references.map fun r => (r.1 + δ, r.2))
    (hnonneg : ∀ r ∈ references, 0 ≤ r.1) (hnonneg' : ∀ r ∈ references', 0 ≤ r.1)
    (m m' : Memory) :
    (resolve m' symbols' references').1 = .ok () ∧ (resolve m symbols references).1 = .ok () ∨
      ∃ s a, (resolve m symbols references).1 =
          .error (.refused { complaint := .undefinedLabel s a }) ∧
        (resolve m' symbols' references').1 =
          .error (.refused { complaint := .undefinedLabel s (a + δ) }) := by
  -- the same references are open, so the first of them is reported at both places
  have hfind : references'.find? (fun r => (symbols'[r.2]?).isNone) =
      (references.find? fun r => (symbols[r.2]?).isNone).map fun r => (r.1 + δ, r.2) := by
    rw [href, List.find?_map]
    congr 2
    funext r
    simp only [Function.comp_apply, h, Option.isNone_map]
  rw [resolve_fst m symbols hnonneg, resolve_fst m' symbols' hnonneg', hfind]
  cases references.find? fun r => (symbols[r.2]?).isNone with
  | none => exact .inl ⟨rfl, rfl⟩
  | some r => exact .inr ⟨r.2, r.1, rfl, rfl⟩

namespace Workspace

/-- Two assembled programs whose bases differ by a distance. -/
structure Relocated (δ : Int) (w v : Workspace) : Prop where
  /-- The labels move with the program. -/
  labels : ∀ name : String, v.labels[name]? = w.labels[name]?.map (· + δ)
  /-- The places that wait for symbols move, and wait for the same symbols. -/
  references : v.references = w.references.map fun r => (r.1 + δ, r.2)
  /-- The words of the moved program were made by the same rows. -/
  addressMap : ∀ a : Int, v.addressMap[a + δ]? = w.addressMap[a]?
  /-- The address behind the last word moves. -/
  address : v.address = w.address + δ
  /-- The address of the row that begins the program moves. -/
  start : v.start = w.start.map (· + δ)
  /-- The address where the program is entered moves, or it is undefined at both places. -/
  entryAddress : v.entryAddress = match w.entryAddress with
    | .ok a => .ok (a + δ)
    | .error d => .error (d.relocate δ)
  /-- A word moves by the distance if it lies in a place that waits for a symbol, and not
  otherwise. -/
  words : ∀ k : Int, 0 ≤ k → k < w.address - w.base → ∃ x,
    w.memory.get? (w.base + k) = some x ∧ v.memory.get? (v.base + k) =
      some (if w.base + k ∈ w.references.map (·.1) then x + δ else x)

/-- The symbols of two drafts of one program differ by the distance. -/
theorem symbols_withDraft {δ : Int} {d e : Draft} (h : d.Relocated δ e) (w v : Workspace)
    (s : String) :
    (v.withDraft e).symbols[s]? = (w.withDraft d).symbols[s]?.map (· + δ) := by
  have hl : (placeLiterals e.address e.pool ∅)[s]? =
      (placeLiterals d.address d.pool ∅)[s]?.map (· + δ) := by
    rw [h.pool, h.address]
    exact placeLiterals_relocated (by simp) d.address d.pool s
  have hd : (w.withDraft d).symbols[s]? =
      ((placeLiterals d.address d.pool ∅)[s]?).or d.labels[s]? := getElem?_symbols _ s
  have he : (v.withDraft e).symbols[s]? =
      ((placeLiterals e.address e.pool ∅)[s]?).or e.labels[s]? := getElem?_symbols _ s
  rw [hd, he, hl, h.labels]
  cases (placeLiterals d.address d.pool ∅)[s]? <;> rfl

/-- The word of a cell moves exactly if the cell waits for a symbol. -/
theorem value?_relocated {δ : Int} {symbols symbols' : SymbolTable}
    (h : ∀ s : String, symbols'[s]? = symbols[s]?.map (· + δ)) (c : Cell) :
    c.value? symbols' = (c.value? symbols).map fun x => if c.symbol?.isSome then x + δ else x := by
  cases c with
  | word value => rfl
  | label name => exact h name
  | literal token value => exact h token

namespace Assembly

variable {δ : Int} {w w' v v' : Workspace} {d e : Draft}

/-- An address of the program is a place that waits for a symbol if its cell does. -/
theorem mem_references_iff (h : w.Assembly d w') {n i : Nat} {c : Cell}
    (hc : (programCells w.rows)[n]? = some (c, i)) :
    w.base + n ∈ w'.references.map (·.1) ↔ c.symbol?.isSome = true := by
  rw [h.references_eq, List.mem_map, Option.isSome_iff_exists]
  constructor
  · rintro ⟨⟨a, s⟩, hr, ha⟩
    obtain ⟨n', c', hc', hs, rfl⟩ := mem_openPlaces_iff.mp hr
    obtain rfl : n' = n := Int.ofNat.inj (Int.add_left_cancel ha)
    rw [List.getElem?_map, hc] at hc'
    obtain rfl : c = c' := Option.some.inj hc'
    exact ⟨s, hs⟩
  · rintro ⟨s, hs⟩
    exact ⟨(w.base + n, s),
      mem_openPlaces_iff.mpr ⟨n, c, by rw [List.getElem?_map, hc]; rfl, hs, rfl⟩, rfl⟩

/-- No reference goes to a place behind the program. -/
theorem not_mem_references (h : w.Assembly d w') {a : Int} (ha : d.address ≤ a) :
    a ∉ w'.references.map (·.1) := by
  rw [h.references_eq, List.mem_map]
  rintro ⟨⟨a, s⟩, hr, rfl⟩
  obtain ⟨n, c, hc, -, rfl⟩ := mem_openPlaces_iff.mp hr
  have hlt := (List.getElem?_eq_some_iff.mp hc).1
  rw [List.length_map] at hlt
  rw [h.draft_address_eq] at ha
  omega

/-- The words of the moved program. -/
theorem words_relocated (hd : w.Assembly d w') (he : v.Assembly e v') (hrows : v.rows = w.rows)
    (h : d.Relocated δ e) {k : Int} (h0 : 0 ≤ k) (hk : k < w'.address - w.base) :
    ∃ x, w'.memory.get? (w.base + k) = some x ∧ v'.memory.get? (v.base + k) =
      some (if w.base + k ∈ w'.references.map (·.1) then x + δ else x) := by
  obtain ⟨n, rfl⟩ := Int.eq_ofNat_of_zero_le h0
  have hd_address := hd.draft_address_eq
  rcases Nat.lt_or_ge n (programCells w.rows).length with hn | hn
  · -- a word of the program: that of the same cell
    obtain ⟨⟨c, i⟩, hc⟩ : ∃ p, (programCells w.rows)[n]? = some p :=
      ⟨_, List.getElem?_eq_getElem hn⟩
    have hc' : (programCells v.rows)[n]? = some (c, i) := by rw [hrows, hc]
    have hsymbols : ∀ s : String, v'.symbols[s]? = w'.symbols[s]?.map (· + δ) := by
      rw [hd.rest_eq, he.rest_eq]
      exact symbols_withDraft h w v
    obtain ⟨x, hx⟩ := hd.exists_resolve? hc
    rw [← hd.value?_eq hc] at hx
    refine ⟨x, by rw [hd.get?_cell hc, hx], ?_⟩
    rw [he.get?_cell hc', value?_relocated hsymbols, hx, Option.map_some]
    simp only [hd.mem_references_iff hc]
  · -- a word of the pool: the value of the same literal, to which no reference goes
    rw [hd.address_eq] at hk
    have hj : n - (programCells w.rows).length < d.pool.length := by omega
    have hl := List.getElem?_eq_getElem hj
    have he_address := he.draft_address_eq
    rw [hrows] at he_address
    have hplace : w.base + (n : Int) = d.address + (n - (programCells w.rows).length : Nat) := by
      omega
    have hplace' : v.base + (n : Int) = e.address + (n - (programCells w.rows).length : Nat) := by
      omega
    refine ⟨_, by rw [hplace, hd.get?_pool hl], ?_⟩
    rw [if_neg (hd.not_mem_references (by omega)), hplace', he.get?_pool (by rw [h.pool]; exact hl)]

/-- An undefined label that the beginning of a program names is reported at the beginning, or at
the base. -/
theorem getD_filter_start {start : Option Int} {base : Int} (hb : 0 ≤ base)
    (h : ∀ a, start = some a → base ≤ a) : (start.filter (· ≠ 0)).getD base = start.getD base := by
  cases start with
  | none => rfl
  | some a =>
    by_cases ha : a = 0
    · -- then the base is zero as well
      have hle := h a rfl
      obtain rfl : base = a := by omega
      simp [Option.filter, ha]
    · simp [Option.filter, ha]

/-- The address where a program is entered moves with it. -/
theorem entryAddress_relocated (hd : w.Assembly d w') (he : v.Assembly e v')
    (hw : 0 ≤ w.base) (hv : 0 ≤ v.base) (h : d.Relocated δ e) :
    v'.entryAddress = match w'.entryAddress with
      | .ok a => .ok (a + δ)
      | .error d => .error (d.relocate δ) := by
  have hbase := h.base
  rw [he.laidOut.base_eq, hd.laidOut.base_eq] at hbase
  have hstart : e.start.getD v.base = d.start.getD w.base + δ := by
    rw [h.start, hbase]
    cases d.start <;> rfl
  unfold entryAddress
  rw [he.entry_eq, he.labels_eq, he.start_eq, he.base_eq, hd.entry_eq, hd.labels_eq, hd.start_eq,
    hd.base_eq, h.entry]
  cases d.entry with
  | none => exact congrArg Except.ok hstart
  | some label =>
    simp only [h.labels]
    cases d.labels[label]? with
    | some a => rfl
    | none =>
      simp only [Option.map_none, getD_filter_start hw hd.laidOut.start_ge,
        getD_filter_start hv he.laidOut.start_ge, hstart]
      rfl

/-- Two assemblies of one program at two bases end alike. -/
theorem relocated (hd : w.Assembly d w') (he : v.Assembly e v') (hrows : v.rows = w.rows)
    (hw : 0 ≤ w.base) (hv : 0 ≤ v.base) (h : d.Relocated δ e) : w'.Relocated δ v' := by
  have hbase := h.base
  rw [he.laidOut.base_eq, hd.laidOut.base_eq] at hbase
  constructor
  case labels => rw [hd.labels_eq, he.labels_eq]; exact h.labels
  case references => rw [hd.references_eq, he.references_eq, hrows, hbase, openPlaces_relocated]
  case addressMap =>
    intro a
    rw [hd.getElem?_addressMap, he.getElem?_addressMap, hrows, h.pool, h.address, hbase]
    simp only [Int.add_le_add_iff_right, Int.add_sub_add_right]
  case address => rw [hd.address_eq, he.address_eq, h.address, h.pool]; omega
  case start => rw [hd.start_eq, he.start_eq, h.start]
  case entryAddress => exact entryAddress_relocated hd he hw hv h
  case words =>
    intro k h0 hk
    rw [hd.base_eq] at hk ⊢
    rw [he.base_eq]
    exact words_relocated hd he hrows h h0 hk

end Assembly

/-- **Relocation.** A program is assembled at two bases that are not below zero, with all addresses
moved by the distance of the bases; or it is refused at both, for the same complaint about the
same line, in which only the address of an undefined label is moved. -/
theorem assemble_relocated (w v : Workspace) (hrows : v.rows = w.rows) (hw : 0 ≤ w.base)
    (hv : 0 ≤ v.base) :
    (∃ w' v', w.assemble = (.ok w'.addressMap, w') ∧ v.assemble = (.ok v'.addressMap, v') ∧
        w'.Relocated (v.base - w.base) v') ∨
      ∃ diagnostic w' v', w.assemble = (.error (.refused diagnostic), w') ∧
        v.assemble = (.error (.refused (diagnostic.relocate (v.base - w.base))), v') := by
  have hempty := Draft.Relocated.empty (v.base - w.base) w.base
  rw [show w.base + (v.base - w.base) = v.base by omega] at hempty
  -- the first pass, from the empty drafts at both bases
  have hrel := hempty.addRows (by simpa [Draft.address]) (by simpa [Draft.address]) 0 w.rows
  obtain ⟨hfst, hsnd⟩ : (Draft.ofRows v.base v.rows).1 = (Draft.ofRows w.base w.rows).1 ∧
      (Draft.ofRows w.base w.rows).2.Relocated (v.base - w.base)
        (Draft.ofRows v.base v.rows).2 := by rwa [hrows]
  rcases hd : Draft.ofRows w.base w.rows with ⟨_ | _, d⟩ <;>
    rcases he : Draft.ofRows v.base v.rows with ⟨_ | _, e⟩ <;>
    rw [hd, he] at hfst hsnd <;> cases hfst
  · -- the first pass refuses a row, at both bases
    obtain ⟨row, i, c, rfl, hk⟩ :=
      Draft.exists_of_addRows_eq_error (by simpa [Draft.address]) hd
    refine .inr ⟨_, w.store d, v.store e, assemble_of_error hd, ?_⟩
    rw [Row.relocate_diagnostic hk]
    exact assemble_of_error he
  · -- the second pass, over references that go to the same cells
    have hld := Draft.laidOut_of_ofRows hd
    have hle := Draft.laidOut_of_ofRows he
    have hrefs : (w.withDraft d).references =
        openPlaces w.base ((programCells w.rows).map (·.1)) := hld.references_eq
    have hrefs' : (v.withDraft e).references =
        openPlaces v.base ((programCells w.rows).map (·.1)) := hrows ▸ hle.references_eq
    have hmoved : (v.withDraft e).references =
        (w.withDraft d).references.map fun r => (r.1 + (v.base - w.base), r.2) := by
      rw [hrefs, hrefs', ← openPlaces_relocated]
      congr 1
      omega
    rcases resolve_relocated (symbols_withDraft hsnd w v) hmoved
      (fun r hr => openPlaces_nonneg hw (hrefs ▸ hr))
      (fun r hr => openPlaces_nonneg hv (hrefs' ▸ hr))
      (w.withDraft d).memory (v.withDraft e).memory with ⟨hre, hrd⟩ | ⟨s, a, hrd, hre⟩
    · obtain ⟨w', hw', hasm⟩ := assemble_of_resolveDraft hd hrd
      obtain ⟨v', hv', hasm'⟩ := assemble_of_resolveDraft he hre
      exact .inl ⟨w', v', hw', hv', hasm.relocated hasm' hrows hw hv hsnd⟩
    · -- the second pass meets the same undefined symbol at both bases
      obtain ⟨w', hw'⟩ := assemble_of_resolveDraft_error hd hrd
      obtain ⟨v', hv'⟩ := assemble_of_resolveDraft_error he hre
      exact .inr ⟨{ complaint := .undefinedLabel s a }, w', v', hw', hv'⟩

theorem relocated_crossReferences :
    ∃ w' v', crossReferences.assemble = (.ok w'.addressMap, w') ∧
      { crossReferences with base := 4096 }.assemble = (.ok v'.addressMap, v') ∧
      w'.Relocated 4080 v' := by
  have hok := isOk_assemble_crossReferences
  rcases assemble_relocated crossReferences { crossReferences with base := 4096 } rfl
    (by decide) (by decide) with h | ⟨_, _, _, h, _⟩
  · exact h
  · rw [h] at hok
    cases hok

end Workspace

end WordMachine
