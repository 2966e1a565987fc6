import WordMachine.Proofs.Names
import WordMachine.Proofs.Refusal

/-!
# Renaming of labels

The names of labels are free: a program with other names is the same program. The first pass lays
out the same cells and binds other names to the same addresses, and the second pass finds for each
of them the address that the old name had. So both programs have the same words, or are refused for
the same reason in the same place.

## Main definitions

* `SymbolTable.Renamed`, `Draft.Renamed`, `Workspace.Renamed`: symbol tables, drafts and workspaces
  of two programs that differ in names
* `Row.Matched`: what a row and the row with other names do to two drafts
* `Workspace.FailsAlike`: how the assemblies of two such programs fail

## Main results

* `Draft.Renamed.addRow`, `Draft.Renamed.addRows`: one row, and all rows, do the same to the drafts
* `resolve_rename`: references with other names are resolved in the same way
* `Workspace.assemble_rename`: a program with other names is assembled as the program is
-/

namespace WordMachine

/-! ## Symbol tables -/

/-- The second symbol table has the new names of the symbols in the first one, each with the address
of its symbol, and no others. -/
def SymbolTable.Renamed (ρ : Renaming) (s t : SymbolTable) : Prop :=
  ∀ name a, t[name]? = some a ↔ ∃ old, ρ old = name ∧ s[old]? = some a

namespace SymbolTable.Renamed

variable {ρ : Renaming} {s s' t t' : SymbolTable}

theorem getElem? (h : Renamed ρ s t) (name : String) : t[ρ name]? = s[name]? := by
  apply Option.ext
  intro a
  rw [h]
  constructor
  · rintro ⟨old, ho, ha⟩
    -- no other symbol has the same new name
    exact ρ.apply_injective ho ▸ ha
  · intro ha
    exact ⟨name, rfl, ha⟩

/-- Two tables differ in names if old and new names have the same addresses and each symbol of the
second table is a new name. -/
theorem of_getElem? (h : ∀ name, t[ρ name]? = s[name]?)
    (hnew : ∀ name a, t[name]? = some a → ∃ old, ρ old = name) : Renamed ρ s t := by
  intro name a
  constructor
  · intro ha
    obtain ⟨old, rfl⟩ := hnew name a ha
    exact ⟨old, rfl, h old ▸ ha⟩
  · rintro ⟨old, rfl, ha⟩
    rwa [h]

theorem empty (ρ : Renaming) : Renamed ρ ∅ ∅ :=
  of_getElem? (by simp) (by simp)

theorem mem_iff (h : Renamed ρ s t) (name : String) : ρ name ∈ t ↔ name ∈ s := by
  rw [Std.ExtTreeMap.mem_iff_isSome_getElem?, h.getElem?, ← Std.ExtTreeMap.mem_iff_isSome_getElem?]

theorem insert (h : Renamed ρ s t) (name : String) (a : Int) :
    Renamed ρ (s.insert name a) (t.insert (ρ name) a) := by
  apply of_getElem?
  · intro other
    simp [Std.ExtTreeMap.getElem?_insert, h.getElem?]
  · intro new b hb
    rw [Std.ExtTreeMap.getElem?_insert] at hb
    split at hb
    · next he => exact ⟨name, by simpa using he⟩
    · obtain ⟨old, ho, -⟩ := (h new b).mp hb
      exact ⟨old, ho⟩

theorem union (h : Renamed ρ s t) (h' : Renamed ρ s' t') : Renamed ρ (s ∪ s') (t ∪ t') := by
  apply of_getElem?
  · intro name
    rw [Std.ExtTreeMap.getElem?_union, Std.ExtTreeMap.getElem?_union, h.getElem?, h'.getElem?]
  · intro new a ha
    rw [Std.ExtTreeMap.getElem?_union, Option.or_eq_some_iff] at ha
    rcases ha with ha | ⟨-, ha⟩
    · obtain ⟨old, ho, -⟩ := (h' new a).mp ha
      exact ⟨old, ho⟩
    · obtain ⟨old, ho, -⟩ := (h new a).mp ha
      exact ⟨old, ho⟩

end SymbolTable.Renamed

/-! ## Cells and literals -/

@[simp] theorem Cell.placeholder_rename (ρ : Renaming) (c : Cell) :
    (c.rename ρ).placeholder = c.placeholder := by
  cases c <;> rfl

@[simp] theorem Cell.symbol?_rename (ρ : Renaming) (c : Cell) :
    (c.rename ρ).symbol? = c.symbol?.map ρ := by
  cases c <;> rfl

/-- A literal with the new names, which keeps its spelling if it is spelled like a literal. -/
def Literal.rename (ρ : Renaming) (l : Literal) : Literal :=
  { l with token := ρ l.token }

theorem noteLiteral_rename (ρ : Renaming) (pool : List Literal) (c : Cell × Nat) :
    Draft.noteLiteral (pool.map (Literal.rename ρ)) (c.1.rename ρ, c.2) =
      (Draft.noteLiteral pool c).map (Literal.rename ρ) := by
  obtain ⟨_ | _ | ⟨token, value⟩, row⟩ := c
  · rfl
  · rfl
  · -- a literal is new to both pools or to none
    have hmem : ρ token ∈ (pool.map (Literal.rename ρ)).map (·.token) ↔
        token ∈ pool.map (·.token) := by
      have hmap : (pool.map (Literal.rename ρ)).map (·.token) = (pool.map (·.token)).map ρ := by
        rw [List.map_map, List.map_map]
        rfl
      rw [hmap, List.mem_map_of_injective ρ.apply_injective]
    rw [Cell.rename, noteLiteral_eq, noteLiteral_eq]
    simp only [hmem]
    split
    · rfl
    · rw [List.map_append]
      rfl

/-! ## The first pass -/

namespace Draft

/-- The drafts of two programs that differ in names. -/
structure Renamed (ρ : Renaming) (d e : Draft) : Prop where
  base : e.base = d.base
  cells : e.cells.toList = d.cells.toList.map fun c => (c.1.rename ρ, c.2)
  labels : SymbolTable.Renamed ρ d.labels e.labels
  start : e.start = d.start
  entry : e.entry = d.entry.map ρ
  refused : e.refused = d.refused.map (Cell.rename ρ)

end Draft

/-- What a row and the row with the new names do to two drafts: both are added, or both are refused
with the same complaint, or there is no address for a cell of either. -/
inductive Row.Matched (ρ : Renaming) (r : Row) (index : Nat) :
    Except Failure Unit × Draft → Except Failure Unit × Draft → Prop
  | added {d e : Draft} (h : d.Renamed ρ e) : Matched ρ r index (.ok (), d) (.ok (), e)
  | refused {d e : Draft} (h : d.Renamed ρ e) (c : Complaint) :
      Matched ρ r index (.error (.refused (r.diagnostic index c)), d)
        (.error (.refused ((r.rename ρ).diagnostic index (c.rename ρ))), e)
  | negative {d e : Draft} (h : d.Renamed ρ e) (fault : NegativeAddress) :
      Matched ρ r index (.error (.negativeAddress fault), d) (.error (.negativeAddress fault), e)

namespace Draft.Renamed

variable {ρ : Renaming} {d e : Draft}

theorem empty (ρ : Renaming) (base : Int) : Renamed ρ { base } { base } where
  base := rfl
  cells := rfl
  labels := .empty ρ
  start := rfl
  entry := rfl
  refused := rfl

theorem address (h : Renamed ρ d e) : e.address = d.address := by
  rw [Draft.address, Draft.address, h.base, ← Array.length_toList, h.cells, List.length_map,
    Array.length_toList]

/-- A label and its new name are refused for the same reason, or both can be bound. -/
theorem labelComplaint? (h : Renamed ρ d e) (r : Row) :
    e.labelComplaint? (r.rename ρ) = (d.labelComplaint? r).map (Complaint.rename ρ) := by
  have hlabel : (r.rename ρ).label = ρ r.label := rfl
  simp only [Draft.labelComplaint?, hlabel, ρ.apply_eq_empty_iff, ρ.isRegisterLike_apply,
    ρ.number?_apply, ρ.overlong?_apply, h.labels.mem_iff]
  split
  · rfl
  · split
    · rfl
    · cases Operand.overlong? r.label with
      | some digits => rfl
      | none =>
        dsimp only
        split <;> rfl

theorem bind (h : Renamed ρ d e) (r : Row) : Renamed ρ (d.bind r) (e.bind (r.rename ρ)) where
  base := h.base
  cells := h.cells
  labels := by
    have hlabel : (r.rename ρ).label = ρ r.label := rfl
    simp only [Draft.bind, hlabel, ρ.apply_eq_empty_iff, h.address]
    split
    · exact h.labels
    · exact h.labels.insert r.label d.address
  start := h.start
  entry := h.entry
  refused := h.refused

theorem noteStart (h : Renamed ρ d e) (r : Row) :
    Renamed ρ (d.noteStart r) (e.noteStart (r.rename ρ)) := by
  unfold Draft.noteStart
  rw [Row.directive?_rename]
  split
  · refine ⟨h.base, h.cells, h.labels, congrArg some h.address, ?_, h.refused⟩
    -- the first operand names the label, if there is one
    show (r.rename ρ).given.head?.or e.entry = (r.given.head?.or d.entry).map ρ
    rw [Row.given_rename, List.head?_map, h.entry, Option.map_or]
  · exact h

theorem push (h : Renamed ρ d e) (cell : Cell) (index : Nat) :
    Renamed ρ { d with cells := d.cells.push (cell, index) }
      { e with cells := e.cells.push (cell.rename ρ, index) } where
  base := h.base
  cells := by
    rw [Array.toList_push, Array.toList_push, h.cells, List.map_append]
    rfl
  labels := h.labels
  start := h.start
  entry := h.entry
  refused := h.refused

theorem addItems (h : Renamed ρ d e) (r : Row) (index : Nat) (items : List Item) :
    r.Matched ρ index (d.addItems r index items)
      (e.addItems (r.rename ρ) index (items.map ρ.item)) := by
  -- Induction on the items: each of them adds a cell to both drafts, or ends the row for both.
  induction items generalizing d e with
  | nil => exact .added h
  | cons item items ih =>
    cases item with
    | error c => exact .refused h c
    | ok cell =>
      have hitem : (Except.ok cell :: items).map ρ.item =
          .ok (cell.rename ρ) :: items.map ρ.item := rfl
      rw [hitem, Draft.addItems, Draft.addItems, h.address]
      split
      · -- the cell for which there is no address is set aside in both drafts
        have haside : Renamed ρ { d with refused := some cell }
            { e with refused := some (cell.rename ρ) } :=
          { h with refused := rfl }
        exact .negative haside _
      · exact ih (h.push cell index)

/-- One row does the same to both drafts. -/
theorem addRow (h : Renamed ρ d e) (r : Row) (index : Nat) :
    r.Matched ρ index (d.addRow r index) (e.addRow (r.rename ρ) index) := by
  rw [Draft.addRow, Draft.addRow, bindLabel_eq, bindLabel_eq, h.labelComplaint?]
  -- a label that is refused ends both rows, and one that is bound leaves it to their items
  cases d.labelComplaint? r with
  | some c => exact .refused h c
  | none =>
    have hitems := ((h.bind r).noteStart r).addItems r index r.items
    rwa [← Row.items_rename] at hitems

theorem of_addRow_eq_ok (h : Renamed ρ d e) {r : Row} {index : Nat} {d' : Draft}
    (hd : d.addRow r index = (.ok (), d')) :
    ∃ e', e.addRow (r.rename ρ) index = (.ok (), e') ∧ Renamed ρ d' e' := by
  have hmatched := h.addRow r index
  rw [hd] at hmatched
  generalize e.addRow (r.rename ρ) index = q at hmatched
  cases hmatched with
  | added h' => exact ⟨_, rfl, h'⟩

/-- Where all rows are added to one draft, those with the new names are added to the other. -/
theorem addRows (h : Renamed ρ d e) {index : Nat} {rows : List Row} {d' : Draft}
    (hd : d.addRows index rows = (.ok (), d')) :
    ∃ e', e.addRows index (rows.map (Row.rename ρ)) = (.ok (), e') ∧ Renamed ρ d' e' := by
  induction rows generalizing d e index with
  | nil =>
    obtain rfl : d = d' := (Prod.mk.inj hd).2
    exact ⟨e, rfl, h⟩
  | cons r rows ih =>
    rw [Draft.addRows] at hd
    split at hd
    · next d₁ h₁ =>
      obtain ⟨e₁, he₁, hnext⟩ := h.of_addRow_eq_ok h₁
      obtain ⟨e', he', hlast⟩ := ih hnext hd
      refine ⟨e', ?_, hlast⟩
      rw [List.map_cons, Draft.addRows, he₁]
      exact he'
    · cases hd

theorem words (h : Renamed ρ d e) : e.words = d.words := by
  rw [Draft.words, Draft.words, h.cells, List.map_map]
  congr 1
  funext c
  exact Cell.placeholder_rename ρ c.1

theorem owners (h : Renamed ρ d e) : e.owners = d.owners := by
  rw [Draft.owners, Draft.owners, h.cells, List.map_map]
  rfl

theorem references (h : Renamed ρ d e) :
    e.references = d.references.map fun r => (r.1, ρ r.2) := by
  have hcells : e.cells.toList.map (·.1) ++ e.refused.toList =
      (d.cells.toList.map (·.1) ++ d.refused.toList).map (Cell.rename ρ) := by
    rw [h.cells, h.refused, List.map_append, List.map_map, List.map_map, Option.toList_map]
    rfl
  rw [Draft.references, Draft.references, hcells, h.base, List.zipIdx_map, List.filterMap_map,
    List.map_filterMap]
  congr 1
  funext p
  obtain ⟨c, i⟩ := p
  cases hs : c.symbol? <;> simp [hs]

theorem pool (h : Renamed ρ d e) : e.pool = d.pool.map (Literal.rename ρ) := by
  have hfold (cells : List (Cell × Nat)) (pool : List Literal) :
      (cells.map fun c => (c.1.rename ρ, c.2)).foldl noteLiteral (pool.map (Literal.rename ρ)) =
        (cells.foldl noteLiteral pool).map (Literal.rename ρ) := by
    induction cells generalizing pool with
    | nil => rfl
    | cons c cells ih =>
      rw [List.map_cons, List.foldl_cons, noteLiteral_rename, ih, List.foldl_cons]
  rw [Draft.pool, Draft.pool, h.cells]
  exact hfold d.cells.toList []

end Draft.Renamed

/-! ## The second pass -/

theorem placeLiterals_rename {ρ : Renaming} {s t : SymbolTable} (h : SymbolTable.Renamed ρ s t)
    (address : Int) (pool : List Literal) :
    SymbolTable.Renamed ρ (Workspace.placeLiterals address pool s)
      (Workspace.placeLiterals address (pool.map (Literal.rename ρ)) t) := by
  induction pool generalizing address s t with
  | nil => exact h
  | cons literal pool ih => exact ih (h.insert literal.token address) (address + 1)

/-- References with the new names are resolved in the same way. -/
theorem resolve_rename {ρ : Renaming} {s t : SymbolTable} (h : SymbolTable.Renamed ρ s t)
    (m : Memory) (references : List (Int × String)) :
    (resolve m t (references.map fun r => (r.1, ρ r.2))).2 = (resolve m s references).2 := by
  induction references generalizing m with
  | nil => rfl
  | cons r references ih =>
    obtain ⟨a, symbol⟩ := r
    simp only [List.map_cons, resolve, h.getElem?]
    cases s[symbol]? with
    | none => rfl
    | some target =>
      dsimp only
      cases m.write a target with
      | error fault => rfl
      | ok n => exact ih n

/-- The first of them that is undefined is reported, with its new name. -/
theorem resolve_rename_fst {ρ : Renaming} {s t : SymbolTable} (h : SymbolTable.Renamed ρ s t)
    (m : Memory) {references : List (Int × String)} (hn : ∀ r ∈ references, 0 ≤ r.1) :
    ((resolve m s references).1 = .ok () ∧
        (resolve m t (references.map fun r => (r.1, ρ r.2))).1 = .ok ()) ∨
      ∃ symbol a, (resolve m s references).1 =
          .error (.refused { complaint := .undefinedLabel symbol a }) ∧
        (resolve m t (references.map fun r => (r.1, ρ r.2))).1 =
          .error (.refused { complaint := .undefinedLabel (ρ symbol) a }) := by
  have hn' : ∀ r ∈ references.map (fun r => (r.1, ρ r.2)), 0 ≤ r.1 := by
    intro r hr
    obtain ⟨q, hq, rfl⟩ := List.mem_map.mp hr
    exact hn q hq
  -- the same reference is the first that is undefined
  have hfind : (references.map fun r => (r.1, ρ r.2)).find? (fun r => (t[r.2]?).isNone) =
      (references.find? fun r => (s[r.2]?).isNone).map fun r => (r.1, ρ r.2) := by
    rw [List.find?_map]
    congr 2
    funext r
    simp only [Function.comp_apply, h.getElem?]
  rw [resolve_fst m s hn, resolve_fst m t hn', hfind]
  cases references.find? fun r => (s[r.2]?).isNone with
  | none => exact .inl ⟨rfl, rfl⟩
  | some r => exact .inr ⟨r.2, r.1, rfl, rfl⟩

/-! ## Both passes -/

/-- The class of the complaint for which a program is refused; none if a word lies below zero. -/
def Failure.kind? : Failure → Option Complaint.Kind
  | refused d => some d.complaint.kind
  | negativeAddress _ => none

/-- A diagnostic about no line with the new names. -/
def Diagnostic.rename (ρ : Renaming) (d : Diagnostic) : Diagnostic :=
  { d with complaint := d.complaint.rename ρ }

namespace Workspace

/-- The workspace for the program with the new names. -/
def rename (ρ : Renaming) (w : Workspace) : Workspace :=
  { w with rows := w.rows.map (Row.rename ρ) }

/-- The outcomes of the assemblies of two programs that differ in names. -/
structure Renamed (ρ : Renaming) (w v : Workspace) : Prop where
  /-- The words are the same. -/
  memory : v.memory = w.memory
  /-- Both start at the same base. -/
  base : v.base = w.base
  /-- The new names have the addresses of the labels. -/
  labels : SymbolTable.Renamed ρ w.labels v.labels
  /-- So do the literals, which are no names. -/
  literals : SymbolTable.Renamed ρ w.literals v.literals
  /-- The same places wait for symbols, with the new names. -/
  references : v.references = w.references.map fun r => (r.1, ρ r.2)
  /-- The next free address is the same. -/
  address : v.address = w.address
  /-- Both begin at the same row. -/
  start : v.start = w.start
  /-- They are entered at the same label, with its new name. -/
  entry : v.entry = w.entry.map ρ
  /-- The words were made by the same rows. -/
  addressMap : v.addressMap = w.addressMap

/-- The first pass ends in the row with an index: it accepts the rows before, and not this row. -/
def StopsAt (w : Workspace) (i : Nat) : Prop :=
  ({ w with rows := w.rows.take i } : Workspace).layOut.1.isOk = true ∧
    ({ w with rows := w.rows.take (i + 1) } : Workspace).layOut.1.isOk = false

/-- How the assemblies of a program and of the program with the new names fail: in the same row with
the same complaint, or in the same row for want of an address, or, if the first pass accepts both,
at the same address for an undefined label. -/
inductive FailsAlike (ρ : Renaming) (w : Workspace) : Failure → Failure → Prop
  | row {i : Nat} {r : Row} {c : Complaint} (hr : w.rows[i]? = some r) (hw : w.StopsAt i)
      (hv : (w.rename ρ).StopsAt i) : FailsAlike ρ w (.refused (r.diagnostic i c))
        (.refused ((r.rename ρ).diagnostic i (c.rename ρ)))
  | negativeAddress {i : Nat} {fault : NegativeAddress} (hw : w.StopsAt i)
      (hv : (w.rename ρ).StopsAt i) :
      FailsAlike ρ w (.negativeAddress fault) (.negativeAddress fault)
  | reference {symbol : String} {a : Int} (hw : w.layOut.1 = .ok ())
      (hv : (w.rename ρ).layOut.1 = .ok ()) :
      FailsAlike ρ w (.refused { complaint := .undefinedLabel symbol a })
        (.refused { complaint := .undefinedLabel (ρ symbol) a })

variable {ρ : Renaming} {w v : Workspace}

/-- Two programs that differ in names fail for complaints of one class. -/
theorem FailsAlike.kind?_eq {f g : Failure} (h : w.FailsAlike ρ f g) : g.kind? = f.kind? := by
  cases h with
  | row => simp only [Failure.kind?, Row.complaint_diagnostic, Complaint.kind_rename]
  | negativeAddress => rfl
  | reference => rfl

/-- Two programs that differ in names are entered at the same address, or where the same label is
undefined. -/
theorem Renamed.entryAddress_eq (h : w.Renamed ρ v) :
    v.entryAddress = w.entryAddress.mapError (Diagnostic.rename ρ) := by
  unfold entryAddress
  rw [h.entry, h.start, h.base]
  cases w.entry with
  | none => rfl
  | some label =>
    simp only [Option.map_some, h.labels.getElem?]
    cases w.labels[label]? <;> rfl

section Draft

variable {d e : Draft}

theorem renamed_store (h : d.Renamed ρ e) (w : Workspace) :
    (w.store d).Renamed ρ ((w.rename ρ).store e) where
  memory := by
    show (w.memory.load e.words w.base).2 = (w.memory.load d.words w.base).2
    rw [h.words]
  base := rfl
  labels := h.labels
  literals := .empty ρ
  references := h.references
  address := h.address
  start := h.start
  entry := h.entry
  addressMap := congrArg (mapRows ∅ w.base) h.owners

theorem renamed_withDraft (h : d.Renamed ρ e) (w : Workspace) :
    (w.withDraft d).Renamed ρ ((w.rename ρ).withDraft e) := by
  have hstore := renamed_store h w
  -- literals with other names have their values and their rows
  have hvalues : (d.pool.map (Literal.rename ρ)).map (·.value) = d.pool.map (·.value) := by
    rw [List.map_map]
    rfl
  have hrows : (d.pool.map (Literal.rename ρ)).map (·.row) = d.pool.map (·.row) := by
    rw [List.map_map]
    rfl
  constructor
  case memory =>
    simp only [withDraft, storePool, h.pool, hvalues, hstore.memory, hstore.address]
  case base => rfl
  case labels => exact hstore.labels
  case literals =>
    simp only [withDraft, storePool, h.pool, hstore.address]
    exact placeLiterals_rename (.empty ρ) _ d.pool
  case references => exact hstore.references
  case address => simp only [withDraft, storePool, h.pool, hstore.address, List.length_map]
  case start => exact hstore.start
  case entry => exact hstore.entry
  case addressMap =>
    simp only [withDraft, storePool, h.pool, hrows, hstore.addressMap, hstore.address]

theorem Renamed.symbols (h : w.Renamed ρ v) : SymbolTable.Renamed ρ w.symbols v.symbols :=
  h.labels.union h.literals

/-- The second pass does the same to both programs. -/
theorem resolveDraft_rename (h : d.Renamed ρ e) (w : Workspace) :
    ((w.rename ρ).resolveDraft e).2 = (w.resolveDraft d).2 := by
  have hdraft := renamed_withDraft h w
  rw [resolveDraft, resolveDraft, hdraft.memory, hdraft.references]
  exact resolve_rename hdraft.symbols _ _

end Draft

/-- The references of a program that is laid out go to addresses that are not below zero. -/
theorem nonneg_of_mem_references {d : Draft} (hd : Draft.ofRows w.base w.rows = (.ok (), d))
    {r : Int × String} (hr : r ∈ (w.withDraft d).references) : 0 ≤ r.1 := by
  have hlaid := Draft.laidOut_of_ofRows hd
  have hr : r ∈ openPlaces w.base ((programCells w.rows).map (·.1)) := hlaid.references_eq ▸ hr
  rcases hlaid.place with hp | hp
  · rw [hp] at hr
    cases hr
  · exact openPlaces_nonneg hp hr

theorem stopsAt_of_addRow {before after : List Row} {r : Row}
    (hrows : w.rows = before ++ r :: after) {d d' : Draft}
    (hd : Draft.ofRows w.base before = (.ok (), d)) {f : Failure}
    (hr : d.addRow r before.length = (.error f, d')) : w.StopsAt before.length := by
  constructor
  · have htake : w.rows.take before.length = before := by rw [hrows, List.take_left']; rfl
    rw [htake, layOut_of_ok (w := { w with rows := before }) hd]
    rfl
  · have htake : w.rows.take (before.length + 1) = before ++ [r] := by
      rw [hrows, List.take_length_add_append]
      rfl
    have hstop : Draft.ofRows w.base (before ++ [r]) = (.error f, d') :=
      Draft.addRows_eq_error_iff.mpr ⟨before, r, [], d, rfl, hd, by rwa [Nat.zero_add]⟩
    rw [htake]
    simp only [layOut, hstop]
    rfl

/-- Where the first pass refuses a program, it refuses the program with the new names in the same
row. -/
theorem exists_failsAlike (ρ : Renaming) {d : Draft} {f : Failure}
    (hd : Draft.ofRows w.base w.rows = (.error f, d)) :
    ∃ g e, Draft.ofRows (w.rename ρ).base (w.rename ρ).rows = (.error g, e) ∧ d.Renamed ρ e ∧
      w.FailsAlike ρ f g := by
  obtain ⟨before, r, after, d₁, hrows, hbefore, hrow⟩ := Draft.addRows_eq_error_iff.mp hd
  rw [Nat.zero_add] at hrow
  have hrows' : (w.rename ρ).rows =
      before.map (Row.rename ρ) ++ r.rename ρ :: after.map (Row.rename ρ) := by
    rw [rename, hrows, List.map_append, List.map_cons]
  obtain ⟨e₁, hbefore', hnext⟩ := (Draft.Renamed.empty ρ w.base).addRows hbefore
  have hr : w.rows[before.length]? = some r := by rw [hrows]; simp
  have hw := stopsAt_of_addRow hrows hbefore hrow
  -- whatever ends the row ends the row with the new names, at the same index
  have hlast {g : Failure} {e : Draft}
      (hg : e₁.addRow (r.rename ρ) before.length = (.error g, e)) :
      Draft.ofRows (w.rename ρ).base (w.rename ρ).rows = (.error g, e) ∧
        (w.rename ρ).StopsAt before.length := by
    have hlength : (before.map (Row.rename ρ)).length = before.length := List.length_map _
    have hstops := stopsAt_of_addRow hrows' hbefore' (by rwa [hlength])
    rw [hlength] at hstops
    refine ⟨Draft.addRows_eq_error_iff.mpr ⟨_, _, _, e₁, hrows', hbefore', ?_⟩, hstops⟩
    rwa [Nat.zero_add, hlength]
  have hmatched := hnext.addRow r before.length
  rw [hrow] at hmatched
  generalize hg : e₁.addRow (r.rename ρ) before.length = q at hmatched
  cases hmatched with
  | refused h c =>
    obtain ⟨hfails, hv⟩ := hlast hg
    exact ⟨_, _, hfails, h, .row hr hw hv⟩
  | negative h fault =>
    obtain ⟨hfails, hv⟩ := hlast hg
    exact ⟨_, _, hfails, h, .negativeAddress hw hv⟩

/-- **Renaming.** A program with other names of labels is assembled if the program is, into the same
words, with the same addresses under the other names. If the program is refused, so is the one with
other names, in the same row or at the same address, for a complaint of the same class. -/
theorem assemble_rename (ρ : Renaming) (w : Workspace) :
    w.assemble.2.Renamed ρ (w.rename ρ).assemble.2 ∧
      (w.rename ρ).assemble.2.entryAddress =
        w.assemble.2.entryAddress.mapError (Diagnostic.rename ρ) ∧
      ((∃ map, w.assemble.1 = .ok map ∧ (w.rename ρ).assemble.1 = .ok map) ∨
        ∃ f g, w.assemble.1 = .error f ∧ (w.rename ρ).assemble.1 = .error g ∧
          w.FailsAlike ρ f g ∧ g.kind? = f.kind?) := by
  suffices h : w.assemble.2.Renamed ρ (w.rename ρ).assemble.2 ∧
      ((∃ map, w.assemble.1 = .ok map ∧ (w.rename ρ).assemble.1 = .ok map) ∨
        ∃ f g, w.assemble.1 = .error f ∧ (w.rename ρ).assemble.1 = .error g ∧
          w.FailsAlike ρ f g) by
    obtain ⟨hrenamed, houtcome⟩ := h
    refine ⟨hrenamed, hrenamed.entryAddress_eq, ?_⟩
    rcases houtcome with hok | ⟨f, g, hf, hg, hfails⟩
    · exact .inl hok
    · exact .inr ⟨f, g, hf, hg, hfails, hfails.kind?_eq⟩
  rcases hd : Draft.ofRows w.base w.rows with ⟨f | ⟨⟩, d⟩
  · -- the first pass stops in a row, for both programs
    obtain ⟨g, e, he, hrenamed, hfails⟩ := exists_failsAlike ρ hd
    rw [assemble_of_error hd, assemble_of_error he]
    exact ⟨renamed_store hrenamed w, .inr ⟨f, g, rfl, rfl, hfails⟩⟩
  · obtain ⟨e, he, hrenamed⟩ := (Draft.Renamed.empty ρ w.base).addRows hd
    have he : Draft.ofRows (w.rename ρ).base (w.rename ρ).rows = (.ok (), e) := he
    have hdraft := renamed_withDraft hrenamed w
    rw [assemble_of_ok hd, assemble_of_ok he]
    constructor
    · obtain ⟨hmemory, hbase, hlabels, hliterals, hreferences, haddress, hstart, hentry, hmap⟩ :=
        hdraft
      exact ⟨resolveDraft_rename hrenamed w, hbase, hlabels, hliterals, hreferences, haddress,
        hstart, hentry, hmap⟩
    · -- the second pass finds all symbols, or misses the same one
      have hresolve := resolve_rename_fst hdraft.symbols (w.withDraft d).memory
        fun r hr => nonneg_of_mem_references hd hr
      rw [resolveDraft, resolveDraft, hdraft.references, hdraft.memory]
      rcases hresolve with ⟨hw, hv⟩ | ⟨symbol, a, hw, hv⟩
      · refine .inl ⟨(w.withDraft d).addressMap, ?_, ?_⟩
        · rw [hw]
          rfl
        · rw [hv, ← hdraft.addressMap]
          rfl
      · have hfails : w.FailsAlike ρ (.refused { complaint := .undefinedLabel symbol a })
            (.refused { complaint := .undefinedLabel (ρ symbol) a }) :=
          .reference (layOut_of_ok hd) (layOut_of_ok he)
        refine .inr ⟨_, _, ?_, ?_, hfails⟩
        · rw [hw]
          rfl
        · rw [hv]
          rfl

/-- Two labels of a program change names. -/
def exchanged : Renaming :=
  .swap "MAIN" "BUF" (by decide +kernel) (by decide +kernel)

theorem renamed_crossReferences :
    crossReferences.assemble.2.Renamed exchanged (crossReferences.rename exchanged).assemble.2 ∧
      ∃ map, crossReferences.assemble.1 = .ok map ∧
        (crossReferences.rename exchanged).assemble.1 = .ok map := by
  have hok := isOk_assemble_crossReferences
  obtain ⟨hrenamed, -, hmap | ⟨f, g, hf, -⟩⟩ := assemble_rename exchanged crossReferences
  · exact ⟨hrenamed, hmap⟩
  · rw [hf] at hok
    cases hok

end Workspace

end WordMachine
