import WordMachine.Proofs.Layout
import WordMachine.Proofs.Placement

/-!
# Resolution of symbols

The second pass puts the addresses of symbols into the places that wait for them. Of several
references to one place the last counts. The references of a program go to the places of its open
cells, so the pass completes the words of the program and leaves the pool behind them alone.

## Main definitions

* `lastReference?`: the symbol of the last reference to an address
* `openPlaces`: the references of cells at consecutive addresses
* `Cell.value?`: the word of a cell under the addresses of symbols
* `Workspace.Assembly`: what a successful assembly has done

## Main results

* `get?_resolve`: what is in memory after references are resolved
* `resolve_fst`: the first reference to an unknown symbol is the one reported
* `Workspace.Assembly.get?_cell`, `Workspace.Assembly.get?_pool`,
  `Workspace.Assembly.get?_outside`: the memory of an assembled program
-/

namespace WordMachine

/-! ## References put into memory -/

/-- The symbol of the last reference to an address. -/
def lastReference? (references : List (Int × String)) (a : Int) : Option String :=
  (references.reverse.find? (·.1 == a)).map (·.2)

theorem lastReference?_snoc (references : List (Int × String)) (r : Int × String) (a : Int) :
    lastReference? (references ++ [r]) a =
      if r.1 = a then some r.2 else lastReference? references a := by
  simp only [lastReference?, List.reverse_append, List.reverse_singleton, List.singleton_append,
    List.find?_cons]
  by_cases h : r.1 = a
  · simp [h]
  · rw [beq_false_of_ne h, if_neg h]

theorem lastReference?_cons (r : Int × String) (references : List (Int × String)) (a : Int) :
    lastReference? (r :: references) a =
      (lastReference? references a).or (if r.1 = a then some r.2 else none) := by
  simp only [lastReference?, List.reverse_cons, List.find?_append, List.find?_singleton]
  cases references.reverse.find? (·.1 == a) with
  | some s => rfl
  | none => by_cases h : r.1 = a <;> simp [h]

section Resolve

variable {m m' : Memory} {symbols : SymbolTable} {references : List (Int × String)}

theorem resolve_cons_eq_ok {a : Int} {s : String}
    (h : resolve m symbols ((a, s) :: references) = (.ok (), m')) :
    ∃ target n, symbols[s]? = some target ∧ m.write a target = .ok n ∧
      resolve n symbols references = (.ok (), m') := by
  rw [resolve] at h
  split at h
  · cases h
  · next target ht =>
    split at h
    · cases h
    · next n hn => exact ⟨target, n, ht, hn, h⟩

/-- References are refused for an undefined symbol. -/
theorem exists_of_resolve_refused {g : Diagnostic}
    (h : resolve m symbols references = (.error (.refused g), m')) :
    ∃ s a, g = { complaint := .undefinedLabel s a } := by
  induction references generalizing m with
  | nil => cases h
  | cons r references ih =>
    unfold resolve at h
    split at h
    · obtain ⟨hg, -⟩ := Prod.mk.inj h
      exact ⟨_, _, (Failure.refused.inj (Except.error.inj hg)).symm⟩
    · split at h
      · cases h
      · exact ih h

/-- When all references are resolved, each has an address and a symbol that is known. -/
theorem exists_of_resolve_eq_ok (h : resolve m symbols references = (.ok (), m'))
    {r : Int × String} (hr : r ∈ references) : 0 ≤ r.1 ∧ ∃ target, symbols[r.2]? = some target := by
  induction references generalizing m with
  | nil => cases hr
  | cons q references ih =>
    obtain ⟨target, n, ht, hn, h⟩ := resolve_cons_eq_ok h
    rcases List.mem_cons.mp hr with rfl | hr
    · exact ⟨Memory.nonneg_of_write_eq_ok hn, target, ht⟩
    · exact ih h hr

theorem mem_of_lastReference? {a : Int} {s : String} (h : lastReference? references a = some s) :
    (a, s) ∈ references := by
  obtain ⟨r, hr, rfl⟩ := Option.map_eq_some_iff.mp h
  have ha : r.1 = a := by simpa using List.find?_some hr
  exact ha ▸ List.mem_reverse.mp (List.mem_of_find?_eq_some hr)

/-- After references are resolved an address holds the target of the last reference to it, or what
it held before. -/
theorem get?_resolve (h : resolve m symbols references = (.ok (), m')) (a : Int) :
    m'.get? a = ((lastReference? references a).bind (symbols[·]?)).or (m.get? a) := by
  induction references generalizing m with
  | nil =>
    obtain rfl : m = m' := (Prod.mk.inj h).2
    rfl
  | cons q references ih =>
    obtain ⟨x, s⟩ := q
    obtain ⟨target, n, ht, hn, h⟩ := resolve_cons_eq_ok h
    rw [ih h, lastReference?_cons, Memory.get?_write hn]
    cases hl : lastReference? references a with
    | some s' =>
      -- a later reference to the address overwrites this one
      obtain ⟨-, target', ht'⟩ := exists_of_resolve_eq_ok h (mem_of_lastReference? hl)
      simp [ht']
    | none =>
      by_cases hx : x = a
      · simp [hx, ht]
      · simp [hx, Ne.symm hx]

/-- Among references at addresses that are not below zero the first to an unknown symbol is
reported. -/
theorem resolve_fst (m : Memory) (symbols : SymbolTable) {references : List (Int × String)}
    (h : ∀ r ∈ references, 0 ≤ r.1) :
    (resolve m symbols references).1 =
      ((references.find? fun r => (symbols[r.2]?).isNone).elim (.ok ()) fun r =>
        .error (.refused { complaint := .undefinedLabel r.2 r.1 })) := by
  induction references generalizing m with
  | nil => rfl
  | cons q references ih =>
    obtain ⟨x, s⟩ := q
    rw [List.forall_mem_cons] at h
    rw [resolve, List.find?_cons]
    cases symbols[s]? with
    | none => rfl
    | some target =>
      obtain ⟨n, hn⟩ := m.exists_write_eq_ok h.1 target
      simp only [hn, Option.isNone_some]
      exact ih n h.2

end Resolve

/-! ## The references of a program -/

/-- The references of cells that are put at consecutive addresses. -/
def openPlaces (base : Int) (cells : List Cell) : List (Int × String) :=
  cells.zipIdx.filterMap fun (cell, i) => cell.symbol?.map fun symbol => (base + i, symbol)

theorem openPlaces_snoc (base : Int) (cells : List Cell) (c : Cell) :
    openPlaces base (cells ++ [c]) =
      openPlaces base cells ++ (c.symbol?.map fun s => (base + cells.length, s)).toList := by
  rw [openPlaces, List.zipIdx_append, List.filterMap_append]
  congr 1
  cases hs : c.symbol? <;> simp [hs]

/-- A reference goes to the place of the cell that waits for its symbol. -/
theorem mem_openPlaces_iff {base : Int} {cells : List Cell} {a : Int} {s : String} :
    (a, s) ∈ openPlaces base cells ↔
      ∃ (n : Nat) (c : Cell), cells[n]? = some c ∧ c.symbol? = some s ∧ a = base + n := by
  simp only [openPlaces, List.mem_filterMap, Prod.exists, List.mem_zipIdx_iff_getElem?,
    Option.map_eq_some_iff, Prod.mk.injEq]
  constructor
  · rintro ⟨c, n, hc, s, hs, rfl, rfl⟩
    exact ⟨n, c, hc, hs, rfl⟩
  · rintro ⟨n, c, hc, hs, rfl⟩
    exact ⟨c, n, hc, s, hs, rfl, rfl⟩

/-- The last reference to an address is that of the cell there. -/
theorem lastReference?_openPlaces (base : Int) (cells : List Cell) (a : Int) :
    lastReference? (openPlaces base cells) a =
      if base ≤ a then (cells[(a - base).toNat]?).bind Cell.symbol? else none := by
  induction cells using List.reverseRecOn with
  | nil => simp [openPlaces, lastReference?]
  | append_singleton cells c ih =>
    by_cases ha : a = base + cells.length
    · -- the place of the new cell, to which no earlier reference goes
      subst ha
      have hnone : lastReference? (openPlaces base cells) (base + cells.length) = none := by
        rw [ih, if_pos (by omega), List.getElem?_eq_none (by omega)]
        rfl
      have hc : (cells ++ [c])[(base + cells.length - base).toNat]? = some c := by
        rw [show (base + (cells.length : Int) - base).toNat = cells.length by omega]
        exact List.getElem?_concat_length
      rw [openPlaces_snoc, if_pos (by omega), hc]
      cases hs : c.symbol? with
      | none => simp [hnone, hs]
      | some s => simp [lastReference?_snoc, hs]
    · -- any other place is that of an earlier cell, or of none
      have hsame : lastReference? (openPlaces base (cells ++ [c])) a =
          lastReference? (openPlaces base cells) a := by
        rw [openPlaces_snoc]
        cases c.symbol? with
        | none => simp
        | some s => simp [lastReference?_snoc, Ne.symm ha]
      rw [hsame, ih]
      split
      · rcases Nat.lt_or_ge (a - base).toNat cells.length with hlt | hge
        · rw [List.getElem?_append_left hlt]
        · rw [List.getElem?_eq_none hge, List.getElem?_eq_none (by simp; omega)]
      · rfl

theorem openPlaces_nonneg {base : Int} {cells : List Cell} (h : 0 ≤ base) {r : Int × String}
    (hr : r ∈ openPlaces base cells) : 0 ≤ r.1 := by
  obtain ⟨n, c, -, -, ha⟩ := mem_openPlaces_iff.mp hr
  omega

theorem Draft.references_of_refused {d : Draft} (h : d.refused = none) :
    d.references = openPlaces d.base (d.cells.toList.map (·.1)) := by
  rw [references, h, Option.toList_none, List.append_nil]
  rfl

namespace LaidOut

variable {base : Int} {rows : List Row} {d : Draft}

theorem map_fst_cells (h : LaidOut base rows d) :
    d.cells.toList.map (·.1) = (programCells rows).map (·.1) := by
  rw [h.cells_eq]

theorem references_eq (h : LaidOut base rows d) :
    d.references = openPlaces base ((programCells rows).map (·.1)) := by
  rw [Draft.references_of_refused h.refused_eq, h.base_eq, h.map_fst_cells]

theorem words_eq (h : LaidOut base rows d) :
    d.words = (programCells rows).map (·.1.placeholder) := by
  rw [Draft.words, h.cells_eq]

theorem owners_eq (h : LaidOut base rows d) : d.owners = (programCells rows).map (·.2) := by
  rw [Draft.owners, h.cells_eq]

end LaidOut

/-! ## The pool of a program -/

/-- The literals of cells in the order of their first use. -/
def poolOf (cells : List (Cell × Nat)) : List Literal :=
  cells.foldl Draft.noteLiteral []

theorem poolOf_snoc (cells : List (Cell × Nat)) (c : Cell × Nat) :
    poolOf (cells ++ [c]) = Draft.noteLiteral (poolOf cells) c := by
  rw [poolOf, List.foldl_append]
  rfl

theorem LaidOut.pool_eq {base : Int} {rows : List Row} {d : Draft} (h : LaidOut base rows d) :
    d.pool = poolOf (programCells rows) := by
  rw [Draft.pool, h.cells_eq]
  rfl

theorem noteLiteral_eq (pool : List Literal) (token : String) (value : Int) (row : Nat) :
    Draft.noteLiteral pool (.literal token value, row) =
      if token ∈ pool.map (·.token) then pool else pool ++ [⟨token, value, row⟩] := by
  simp only [Draft.noteLiteral, List.any_eq_true, beq_iff_eq, List.mem_map]

/-- No two literals of the pool have the same spelling. -/
theorem nodup_poolOf (cells : List (Cell × Nat)) : ((poolOf cells).map (·.token)).Nodup := by
  induction cells using List.reverseRecOn with
  | nil => exact List.nodup_nil
  | append_singleton cells c ih =>
    rw [poolOf_snoc]
    obtain ⟨_ | _ | ⟨token, value⟩, row⟩ := c
    · exact ih
    · exact ih
    · rw [noteLiteral_eq]
      split
      · exact ih
      · next hnew =>
        -- a literal is added only if none is spelled like it
        rw [List.map_append, List.nodup_append]
        refine ⟨ih, List.pairwise_singleton _ _, ?_⟩
        rintro t ht t' ht' rfl
        have he : t = token := List.mem_singleton.mp ht'
        exact hnew (he ▸ ht)

/-- A literal of the pool is that of a cell. -/
theorem mem_of_mem_poolOf {cells : List (Cell × Nat)} {literal : Literal}
    (h : literal ∈ poolOf cells) : (.literal literal.token literal.value, literal.row) ∈ cells := by
  induction cells using List.reverseRecOn with
  | nil => cases h
  | append_singleton cells c ih =>
    rw [List.mem_append]
    rw [poolOf_snoc] at h
    obtain ⟨_ | _ | ⟨token, value⟩, row⟩ := c
    · exact .inl (ih h)
    · exact .inl (ih h)
    · rw [noteLiteral_eq] at h
      split at h
      · exact .inl (ih h)
      · rcases List.mem_append.mp h with h | h
        · exact .inl (ih h)
        · obtain rfl := List.mem_singleton.mp h
          exact .inr (List.mem_singleton.mpr rfl)

/-- The literal of a cell is in the pool. -/
theorem token_mem_poolOf {cells : List (Cell × Nat)} {token : String} {value : Int} {row : Nat}
    (h : (.literal token value, row) ∈ cells) : token ∈ (poolOf cells).map (·.token) := by
  induction cells using List.reverseRecOn with
  | nil => cases h
  | append_singleton cells c ih =>
    rw [poolOf_snoc]
    rcases List.mem_append.mp h with h | h
    · -- the pool only grows
      have hold := ih h
      obtain ⟨_ | _ | ⟨token', value'⟩, row'⟩ := c
      · exact hold
      · exact hold
      · rw [noteLiteral_eq]
        split
        · exact hold
        · rw [List.map_append]
          exact List.mem_append_left _ hold
    · rw [← List.mem_singleton.mp h, noteLiteral_eq]
      split
      · assumption
      · simp

/-! ## Assembled programs -/

/-- The word of a cell under the addresses of symbols. -/
def Cell.value? (symbols : SymbolTable) : Cell → Option Int
  | word value => some value
  | label name => symbols[name]?
  | literal token _ => symbols[token]?

theorem Cell.value?_eq {symbols : SymbolTable} {c : Cell}
    (h : ∀ s, c.symbol? = some s → ∃ target, symbols[s]? = some target) :
    c.value? symbols = (c.symbol?.bind (symbols[·]?)).or (some c.placeholder) := by
  cases c with
  | word value => rfl
  | label name =>
    obtain ⟨target, ht⟩ := h name rfl
    simp [value?, symbol?, ht]
  | literal token value =>
    obtain ⟨target, ht⟩ := h token rfl
    simp [value?, symbol?, ht]

namespace Workspace

/-- The workspace after the first pass has made a draft: the words of the draft are in memory, with
the pool of its literals behind them. -/
def withDraft (w : Workspace) (d : Draft) : Workspace :=
  (w.store d).storePool d.pool

/-- The second pass over a draft. -/
def resolveDraft (w : Workspace) (d : Draft) : Except Failure Unit × Memory :=
  resolve (w.withDraft d).memory (w.withDraft d).symbols (w.withDraft d).references

/-- An assembly that the first pass refuses ends there. -/
theorem assemble_of_error {w : Workspace} {f : Failure} {d : Draft}
    (h : Draft.ofRows w.base w.rows = (.error f, d)) : w.assemble = (.error f, w.store d) := by
  simp only [assemble, layOut, h]

/-- An assembly whose first pass succeeds ends as the second pass does. -/
theorem assemble_of_ok {w : Workspace} {d : Draft} (h : Draft.ofRows w.base w.rows = (.ok (), d)) :
    w.assemble = ((w.resolveDraft d).1.map fun _ => (w.withDraft d).addressMap,
      { w.withDraft d with memory := (w.resolveDraft d).2 }) := by
  simp only [assemble, layOut, h, patch, resolveDraft, withDraft]
  cases (resolve ((w.store d).storePool d.pool).memory ((w.store d).storePool d.pool).symbols
    ((w.store d).storePool d.pool).references).1 <;> rfl

/-- What a successful assembly has done: the rows are laid out in a draft, the words of the draft
are loaded with the pool of its literals behind them, and its references are resolved. -/
structure Assembly (w : Workspace) (d : Draft) (w' : Workspace) : Prop where
  laidOut : LaidOut w.base w.rows d
  rest_eq : w' = { w.withDraft d with memory := w'.memory }
  resolved : w.resolveDraft d = (.ok (), w'.memory)

/-- When both passes succeed the assembly does, and answers the map of its addresses. -/
theorem assemble_of_resolveDraft {w : Workspace} {d : Draft}
    (hd : Draft.ofRows w.base w.rows = (.ok (), d)) (hr : (w.resolveDraft d).1 = .ok ()) :
    ∃ w', w.assemble = (.ok w'.addressMap, w') ∧ w.Assembly d w' := by
  refine ⟨{ w.withDraft d with memory := (w.resolveDraft d).2 }, ?_, ?_⟩
  · rw [assemble_of_ok hd, hr]
    rfl
  · exact ⟨Draft.laidOut_of_ofRows hd, rfl, Prod.ext hr rfl⟩

/-- When the second pass fails the assembly does, for the same reason. -/
theorem assemble_of_resolveDraft_error {w : Workspace} {d : Draft} {f : Failure}
    (hd : Draft.ofRows w.base w.rows = (.ok (), d)) (hr : (w.resolveDraft d).1 = .error f) :
    ∃ w', w.assemble = (.error f, w') := by
  refine ⟨{ w.withDraft d with memory := (w.resolveDraft d).2 }, ?_⟩
  rw [assemble_of_ok hd, hr]
  rfl

/-- An assembly that succeeds has laid out a draft and resolved its references. -/
theorem exists_draft_of_assemble {w w' : Workspace} {map : AddressMap}
    (h : w.assemble = (.ok map, w')) :
    ∃ d, Draft.ofRows w.base w.rows = (.ok (), d) ∧ w.Assembly d w' ∧ map = w'.addressMap := by
  rcases hd : Draft.ofRows w.base w.rows with ⟨_ | _, d⟩
  · -- neither pass may have failed
    rw [assemble_of_error hd] at h
    cases h
  · cases hr : (w.resolveDraft d).1 with
    | error f =>
      rw [assemble_of_ok hd, hr] at h
      cases h
    | ok u =>
      obtain ⟨v, hv, ha⟩ := assemble_of_resolveDraft hd hr
      rw [hv] at h
      obtain ⟨hmap, rfl⟩ := Prod.mk.inj h
      exact ⟨d, rfl, ha, (Except.ok.inj hmap).symm⟩

theorem assemble_eq_ok {w w' : Workspace} {map : AddressMap} (h : w.assemble = (.ok map, w')) :
    (∃ d, w.Assembly d w') ∧ map = w'.addressMap := by
  obtain ⟨d, -, ha, hmap⟩ := exists_draft_of_assemble h
  exact ⟨⟨d, ha⟩, hmap⟩

namespace Assembly

variable {w w' : Workspace} {d : Draft}

theorem base_eq (h : w.Assembly d w') : w'.base = w.base := by rw [h.rest_eq]; rfl

theorem labels_eq (h : w.Assembly d w') : w'.labels = d.labels := by rw [h.rest_eq]; rfl

theorem literals_eq (h : w.Assembly d w') :
    w'.literals = placeLiterals d.address d.pool ∅ := by rw [h.rest_eq]; rfl

theorem address_eq (h : w.Assembly d w') : w'.address = d.address + d.pool.length := by
  rw [h.rest_eq]; rfl

theorem start_eq (h : w.Assembly d w') : w'.start = d.start := by rw [h.rest_eq]; rfl

theorem entry_eq (h : w.Assembly d w') : w'.entry = d.entry := by rw [h.rest_eq]; rfl

theorem references_eq (h : w.Assembly d w') :
    w'.references = openPlaces w.base ((programCells w.rows).map (·.1)) := by
  rw [h.rest_eq]
  exact h.laidOut.references_eq

theorem pool_eq (h : w.Assembly d w') : d.pool = poolOf (programCells w.rows) :=
  h.laidOut.pool_eq

theorem draft_address_eq (h : w.Assembly d w') :
    d.address = w.base + (programCells w.rows).length := by
  rw [h.laidOut.address_eq, length_programCells]

/-- Without an address for its words a program has none. -/
theorem place (h : w.Assembly d w') : programCells w.rows = [] ∨ 0 ≤ w.base :=
  h.laidOut.place

theorem pool_place (h : w.Assembly d w') : d.pool = [] ∨ 0 ≤ d.address := by
  rw [h.pool_eq, h.draft_address_eq]
  rcases h.place with hp | hp
  · exact .inl (by rw [hp]; rfl)
  · exact .inr (by omega)

/-- An address holds the target of the reference to it, or what was loaded there. -/
theorem get?_memory (h : w.Assembly d w') (a : Int) :
    w'.memory.get? a = ((lastReference? w'.references a).bind (w'.symbols[·]?)).or
      (((w.memory.load d.words w.base).2.load (d.pool.map (·.value)) d.address).2.get? a) := by
  rw [h.rest_eq]
  exact get?_resolve h.resolved a

theorem lastReference?_eq (h : w.Assembly d w') (a : Int) :
    lastReference? w'.references a =
      if w.base ≤ a then ((programCells w.rows)[(a - w.base).toNat]?).bind (·.1.symbol?)
      else none := by
  rw [h.references_eq, lastReference?_openPlaces]
  split
  · rw [List.getElem?_map, Option.bind_map]
    rfl
  · rfl

/-- Behind the cells of the program there is no place for a reference. -/
theorem lastReference?_of_outside (h : w.Assembly d w') {a : Int}
    (ha : a < w.base ∨ d.address ≤ a) : lastReference? w'.references a = none := by
  rw [h.draft_address_eq] at ha
  rw [h.lastReference?_eq]
  split
  · rw [List.getElem?_eq_none (by omega)]
    rfl
  · rfl

/-- Each symbol of the program has an address. -/
theorem exists_symbol (h : w.Assembly d w') {n i : Nat} {c : Cell} {s : String}
    (hc : (programCells w.rows)[n]? = some (c, i)) (hs : c.symbol? = some s) :
    ∃ target, w'.symbols[s]? = some target := by
  have hm : (w.base + n, s) ∈ w'.references := by
    rw [h.references_eq, mem_openPlaces_iff]
    exact ⟨n, c, by rw [List.getElem?_map, hc]; rfl, hs, rfl⟩
  rw [h.rest_eq] at hm ⊢
  exact (exists_of_resolve_eq_ok h.resolved hm).2

/-- The words of the program are those of its cells. -/
theorem get?_cell (h : w.Assembly d w') {n i : Nat} {c : Cell}
    (hc : (programCells w.rows)[n]? = some (c, i)) :
    w'.memory.get? (w.base + n) = c.value? w'.symbols := by
  have hn : n < (programCells w.rows).length := (List.getElem?_eq_some_iff.mp hc).1
  have hb : 0 ≤ w.base := h.place.resolve_left (List.ne_nil_of_length_pos (by omega))
  have hw : d.words[n]? = some c.placeholder := by
    rw [h.laidOut.words_eq, List.getElem?_map, hc]
    rfl
  have hlast : lastReference? w'.references (w.base + n) = c.symbol? := by
    rw [h.lastReference?_eq, if_pos (by omega), show (w.base + n - w.base).toNat = n by omega, hc]
    rfl
  have hd := h.draft_address_eq
  -- the pool lies behind the cell, so the word is the placeholder or the target of its symbol
  rw [h.get?_memory, hlast,
    Memory.get?_load_of_outside _ (.inl (by omega)) (.inl (by omega)),
    Memory.get?_load_add _ hb hw, Cell.value?_eq fun s hs => h.exists_symbol hc hs]

/-- The words of the pool are the values of its literals. -/
theorem get?_pool (h : w.Assembly d w') {j : Nat} {literal : Literal}
    (hl : d.pool[j]? = some literal) : w'.memory.get? (d.address + j) = some literal.value := by
  have hne : d.pool ≠ [] := by
    intro he
    rw [he] at hl
    cases hl
  have hv : (d.pool.map (·.value))[j]? = some literal.value := by
    rw [List.getElem?_map, hl]
    rfl
  rw [h.get?_memory, h.lastReference?_of_outside (.inr (by omega)),
    Memory.get?_load_add _ (h.pool_place.resolve_left hne) hv]
  rfl

/-- Outside the program and its pool memory is as it was. -/
theorem get?_outside (h : w.Assembly d w') {a : Int} (ha : a < w.base ∨ w'.address ≤ a) :
    w'.memory.get? a = w.memory.get? a := by
  have hd := h.draft_address_eq
  have hw : d.words.length = (programCells w.rows).length := by
    rw [h.laidOut.words_eq, List.length_map]
  have hplace : 0 ≤ w.base ∨ d.words = [] := by
    rcases h.place with hp | hp
    · exact .inr (List.eq_nil_of_length_eq_zero (by rw [hw, hp]; rfl))
    · exact .inl hp
  have hpool : 0 ≤ d.address ∨ d.pool.map (·.value) = [] := by
    rcases h.pool_place with hp | hp
    · exact .inr (by rw [hp]; rfl)
    · exact .inl hp
  rw [h.address_eq] at ha
  rw [h.get?_memory, h.lastReference?_of_outside (by omega),
    Memory.get?_load_of_outside _ hpool (by rw [List.length_map]; omega),
    Memory.get?_load_of_outside _ hplace (by omega)]
  rfl

/-- The word at an address of the program belongs to the row of its cell. -/
theorem getElem?_addressMap (h : w.Assembly d w') (a : Int) :
    w'.addressMap[a]? =
      if d.address ≤ a then ((d.pool[(a - d.address).toNat]?).map fun l => (l.row : Int))
      else if w.base ≤ a then
        ((programCells w.rows)[(a - w.base).toNat]?).map fun c => (c.2 : Int)
      else none := by
  have hd := h.draft_address_eq
  have hmap : w'.addressMap =
      mapRows (mapRows ∅ w.base d.owners) d.address (d.pool.map (·.row)) := by
    rw [h.rest_eq]; rfl
  rw [hmap, getElem?_mapRows, getElem?_mapRows, h.laidOut.owners_eq]
  split
  · -- the address is one of the pool, or behind it
    rw [if_pos (by omega), List.getElem?_map, List.getElem?_map,
      List.getElem?_eq_none (l := programCells w.rows) (by omega)]
    simp [Option.map_map, Function.comp_def]
  · split
    · simp [Option.map_map, Function.comp_def]
    · simp

end Assembly

end Workspace

end WordMachine
