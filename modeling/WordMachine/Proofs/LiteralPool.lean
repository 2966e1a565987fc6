import WordMachine.Proofs.ObjectCode

/-!
# The pool of literals

The literals of a program are the address operands that start with an equals sign. Each gets one
word behind the program, in the order in which the literals are first used, and every reference to
it is to this word. Labels have a table of their own: a label that is spelled like a literal has
the address of its row, and no reference to the literal finds it.

## Main definitions

* `Row.addressOperands`, `Row.literals`: the operands of a row that stand for addresses, and those
  of them that are literals
* `Workspace.tokens`: the literals of a program, each once
* `Workspace.Pooled`: the pool of an assembled program

## Main results

* `Row.literals_eq`: the literals of a row are those of its cells
* `map_token_poolOf`: the pool has each literal of the cells once
* `Workspace.pooled_of_assemble`: the pool of a program that is assembled
-/

namespace WordMachine

/-! ## The literals of a row -/

/-- Whether an operand is spelled like a literal. -/
def Operand.isLiteral (s : String) : Bool :=
  startsWith s '='

namespace Row

/-- The operands of a row that stand for addresses. The operand of a constant definition may stand
for one too. -/
def addressOperands (r : Row) : List String :=
  if r.name = "" then []
  else
    match r.directive? with
    | some .constant | some .input | some .output => r.given
    | some _ => []
    | none =>
      match Mnemonic.ofName? r.name with
      | some .svc => r.given.tail
      | some m => (m.addressOperand? r.given).toList
      | none => []

/-- The literals among the operands of a row. -/
def literals (r : Row) : List String :=
  r.addressOperands.filter Operand.isLiteral

end Row

/-- The literal whose pool word a cell waits for. -/
def Cell.token? : Cell → Option String
  | literal token _ => some token
  | _ => none

theorem Cell.eq_literal_of_token? {c : Cell} {token : String} (h : c.token? = some token) :
    ∃ value, c = .literal token value := by
  cases c with
  | word value | label name => cases h
  | literal token' value => exact ⟨value, by rw [Option.some.inj h]⟩

theorem Cell.token?_of_ofAddress {operand : String} {c : Cell} (h : ofAddress operand = .ok c) :
    c.token? = if Operand.isLiteral operand then some operand else none := by
  unfold Operand.isLiteral
  cases ofAddress_eq_ok h with
  | literal hs => rw [if_pos hs, token?]
  | number hs | label hs =>
    rw [hs]
    rfl

/-- The literals of the cells of items. -/
def itemTokens (items : List Item) : List String :=
  (cellsOf items).filterMap Cell.token?

theorem itemTokens_word (value : Int) (items : List Item) :
    itemTokens (.ok (.word value) :: items) = itemTokens items := rfl

theorem itemTokens_address {operand : String} {items : List Item}
    (h : complaintOf? (Cell.ofAddress operand :: items) = none) :
    complaintOf? items = none ∧ itemTokens (Cell.ofAddress operand :: items) =
      [operand].filter Operand.isLiteral ++ itemTokens items := by
  cases hc : Cell.ofAddress operand with
  | error c => rw [hc] at h; cases h
  | ok c =>
    rw [hc] at h
    refine ⟨h, ?_⟩
    rw [itemTokens, cellsOf, List.filterMap_cons, Cell.token?_of_ofAddress hc]
    by_cases he : Operand.isLiteral operand = true
    · rw [if_pos he, List.filter_cons_of_pos he]
      rfl
    · rw [if_neg he, List.filter_cons_of_neg he]
      rfl

theorem itemTokens_addresses (operands : List String)
    (h : complaintOf? (operands.map Cell.ofAddress) = none) :
    itemTokens (operands.map Cell.ofAddress) = operands.filter Operand.isLiteral := by
  induction operands with
  | nil => rfl
  | cons operand operands ih =>
    obtain ⟨h, ht⟩ := itemTokens_address h
    rw [List.map_cons, ht, ih h, ← List.filter_append, List.singleton_append]

theorem itemTokens_call {subtype : Int} {buffer length : String}
    (h : complaintOf? (callItems subtype buffer length) = none) :
    itemTokens (callItems subtype buffer length) =
      [buffer, length].filter Operand.isLiteral :=
  itemTokens_addresses [buffer, length] h

/-- A constant is no literal, and the operand of a constant definition that is none stands for an
address. -/
theorem itemTokens_constant {operand : String} (h : complaintOf? [constantItem operand] = none) :
    itemTokens [constantItem operand] = [operand].filter Operand.isLiteral := by
  have hread := overlong?_of_constantItem h
  rw [constantItem, Operand.readable_of_none hread] at h ⊢
  cases hc : Operand.constant? operand with
  | some value =>
    have hstart : ¬Operand.isLiteral operand = true := by
      intro he
      cases hc.symm.trans (Operand.constant?_of_startsWith he)
    rw [List.filter_cons_of_neg hstart]
    rfl
  | none =>
    simp only [hc] at h ⊢
    split at h
    · cases h
    · next hq =>
      rw [if_neg hq]
      exact itemTokens_addresses [operand] h

namespace Row

/-- The literals of a row that is not refused are those of its cells. -/
theorem literals_eq {r : Row} (h : r.complaint? = none) :
    r.cells.filterMap Cell.token? = r.literals := by
  show itemTokens r.items = _
  have hk := kind_of_sound h
  unfold complaint? at h
  cases hk with
  | idle hi =>
    rcases hi with hn | hd | hd
    · simp [literals, addressOperands, items, hn, itemTokens, cellsOf]
    · rw [items_of_directive hd]
      simp [literals, addressOperands, name_ne_of_directive hd, hd, itemTokens, cellsOf,
        Directive.items]
    · rw [items_of_directive hd]
      simp [literals, addressOperands, name_ne_of_directive hd, hd, itemTokens, cellsOf,
        Directive.items]
  | @constant operand hd hg =>
    rw [items_of_directive hd, hg] at h ⊢
    rw [show Directive.items .constant [operand] = [constantItem operand] from rfl] at h ⊢
    rw [itemTokens_constant h]
    simp [literals, addressOperands, name_ne_of_directive hd, hd, hg]
  | reserve hd =>
    rw [items_of_directive hd]
    simp [literals, addressOperands, name_ne_of_directive hd, hd, itemTokens, cellsOf,
      Directive.items, Cell.token?]
  | @call d subtype buffer length hd hs hg =>
    rw [items_of_call hd hs hg] at h ⊢
    rw [itemTokens_call h, literals, addressOperands, if_neg (name_ne_of_directive hd), hd]
    rcases hs with ⟨rfl, rfl⟩ | ⟨rfl, rfl⟩ <;> simp only [hg]
  | @supervisor operand buffer length subtype hd hm hg hs range =>
    rw [items_of_supervisor hd hm hg hs range] at h ⊢
    rw [itemTokens_call h, literals, addressOperands, if_neg (name_ne_of_instruction hm), hd]
    simp only [hm, hg, List.tail_cons]
  | @instruction m e hd hm hne he =>
    have hi : r.items = .ok (.word e.word) :: e.address.toList.map Cell.ofAddress := by
      rw [items_of_instruction hd hm, Mnemonic.items, if_neg hne, he]
    rw [hi] at h ⊢
    rw [itemTokens_word, itemTokens_addresses _ h, literals, addressOperands,
      if_neg (name_ne_of_instruction hm), hd]
    simp only [hm, (Mnemonic.eq_of_encode he).2]

theorem mem_literals_iff {r : Row} (h : r.complaint? = none) {token : String} :
    token ∈ r.literals ↔ ∃ (k : Nat) (value : Int), r.cells[k]? = some (.literal token value) := by
  rw [← literals_eq h, List.mem_filterMap]
  constructor
  · rintro ⟨c, hc, ht⟩
    obtain ⟨value, rfl⟩ := Cell.eq_literal_of_token? ht
    obtain ⟨k, hk⟩ := List.getElem?_of_mem hc
    exact ⟨k, value, hk⟩
  · rintro ⟨k, value, hk⟩
    exact ⟨_, List.mem_of_getElem? hk, rfl⟩

end Row

/-! ## The literals of a program -/

/-- The literals of the cells of a program are those of its rows. -/
theorem filterMap_token?_programCells {rows : List Row} (h : ∀ r ∈ rows, r.complaint? = none) :
    (programCells rows).filterMap (fun c => c.1.token?) = rows.flatMap Row.literals := by
  induction rows using List.reverseRecOn with
  | nil => rfl
  | append_singleton rows r ih =>
    have hrow := Row.literals_eq (h r (by simp))
    rw [programCells_snoc, List.filterMap_append, List.filterMap_map, List.flatMap_append,
      ih fun s hs => h s (List.mem_append_left _ hs), List.flatMap_singleton, ← hrow]
    rfl

theorem eraseDups_snoc (tokens : List String) (token : String) :
    (tokens ++ [token]).eraseDups =
      if token ∈ tokens then tokens.eraseDups else tokens.eraseDups ++ [token] := by
  rw [List.eraseDups_append]
  by_cases h : token ∈ tokens
  · simp [List.removeAll, h]
  · simp [List.removeAll, h, List.eraseDups_cons]

/-- The pool has each literal of the cells once, in the order of first use. -/
theorem map_token_poolOf (cells : List (Cell × Nat)) :
    (poolOf cells).map (·.token) = (cells.filterMap fun c => c.1.token?).eraseDups := by
  induction cells using List.reverseRecOn with
  | nil => rfl
  | append_singleton cells c ih =>
    rw [poolOf_snoc, List.filterMap_append]
    obtain ⟨c, row⟩ := c
    cases c with
    | word value | label name =>
      show (poolOf cells).map (·.token) = (_ ++ []).eraseDups
      rw [List.append_nil, ih]
    | literal token value =>
      show _ = (cells.filterMap (fun c => c.1.token?) ++ [token]).eraseDups
      have hmem : token ∈ (poolOf cells).map (·.token) ↔
          token ∈ cells.filterMap fun c => c.1.token? := by rw [ih, List.mem_eraseDups]
      rw [noteLiteral_eq, eraseDups_snoc]
      by_cases h : token ∈ (poolOf cells).map (·.token)
      · rw [if_pos h, if_pos (hmem.mp h), ih]
      · rw [if_neg h, if_neg (mt hmem.mpr h), List.map_append, ih]
        rfl

/-- A literal of the pool is noted for the first cell that waits for it. -/
theorem first_of_mem_poolOf {cells : List (Cell × Nat)} {literal : Literal}
    (h : literal ∈ poolOf cells) :
    ∃ before after, cells = before ++ (.literal literal.token literal.value, literal.row) :: after ∧
      ∀ c ∈ before, c.1.token? ≠ some literal.token := by
  induction cells using List.reverseRecOn with
  | nil => cases h
  | append_singleton cells c ih =>
    -- a literal that was noted before stays, with the same first cell
    have hold (h : literal ∈ poolOf cells) : ∃ before after,
        cells ++ [c] = before ++ (.literal literal.token literal.value, literal.row) :: after ∧
          ∀ c ∈ before, c.1.token? ≠ some literal.token := by
      obtain ⟨before, after, rfl, hbefore⟩ := ih h
      exact ⟨before, after ++ [c], by simp, hbefore⟩
    rw [poolOf_snoc] at h
    obtain ⟨_ | _ | ⟨token, value⟩, row⟩ := c
    · exact hold h
    · exact hold h
    · rw [noteLiteral_eq] at h
      split at h
      · exact hold h
      · next hnew =>
        rcases List.mem_append.mp h with h | h
        · exact hold h
        · obtain rfl := List.mem_singleton.mp h
          refine ⟨cells, [], rfl, ?_⟩
          -- a cell before that waits for the literal would have noted it
          rintro ⟨c, i⟩ hc ht
          obtain ⟨v, rfl⟩ := Cell.eq_literal_of_token? ht
          exact hnew (token_mem_poolOf hc)

/-- The literals of the pool are noted for the first rows that use them. -/
theorem first_row_of_mem_poolOf {rows : List Row} (h : ∀ r ∈ rows, r.complaint? = none)
    {literal : Literal} (hl : literal ∈ poolOf (programCells rows)) :
    (∃ r, rows[literal.row]? = some r ∧ literal.token ∈ r.literals) ∧
      ∀ i < literal.row, ∀ r, rows[i]? = some r → literal.token ∉ r.literals := by
  obtain ⟨before, after, hcells, hbefore⟩ := first_of_mem_poolOf hl
  have hfirst : (programCells rows)[before.length]? =
      some (.literal literal.token literal.value, literal.row) := by
    rw [hcells]
    simp
  obtain ⟨r, k, hr, hk, hn⟩ := getElem?_programCells.mp hfirst
  refine ⟨⟨r, hr, (Row.mem_literals_iff (h r (List.mem_of_getElem? hr))).mpr ⟨k, _, hk⟩⟩, ?_⟩
  intro i hi s hs hm
  -- the cell of an earlier row would lie before the first one
  obtain ⟨j, value, hj⟩ := (Row.mem_literals_iff (h s (List.mem_of_getElem? hs))).mp hm
  have hlt := offset_add_lt hs (List.getElem?_eq_some_iff.mp hj).1 hi
  have hcell : (programCells rows)[offset rows i + j]? = some (.literal literal.token value, i) :=
    getElem?_programCells.mpr ⟨s, j, hs, hj, rfl⟩
  rw [hcells, List.getElem?_append_left (by omega)] at hcell
  exact hbefore _ (List.mem_of_getElem? hcell) rfl

/-! ## The pool of an assembled program -/

namespace Workspace

/-- The literals of a program, each once, in the order of their first use. -/
def tokens (w : Workspace) : List String :=
  (w.rows.flatMap Row.literals).eraseDups

/-- The address behind the words of all rows, where the pool starts. -/
def poolAddress (w : Workspace) : Int :=
  w.rowAddress w.rows.length

/-- The pool of a program that was assembled from `w` into `w'`. -/
structure Pooled (w : Workspace) (map : AddressMap) (w' : Workspace) : Prop where
  /-- It has one word for each literal and nothing behind. -/
  address : w'.address = w.poolAddress + w.tokens.length
  /-- The word of a literal is the constant that is spelled behind its equals sign. -/
  word : ∀ (j : Nat) (token : String), w.tokens[j]? = some token → ∃ x,
    Operand.Spells (String.ofList token.toList.tail) x ∧
      w'.memory.get? (w.poolAddress + j) = some x
  /-- A word that refers to a literal holds the address of the literal's word. -/
  reference : ∀ (j : Nat) (token : String) (a : Int), w.tokens[j]? = some token →
    (a, token) ∈ w'.references → w'.memory.get? a = some (w.poolAddress + j)
  /-- The word of a literal belongs to the first row that uses the literal. -/
  row : ∀ (j : Nat) (token : String), w.tokens[j]? = some token → ∃ (i : Nat) (r : Row),
    w.rows[i]? = some r ∧ token ∈ r.literals ∧
      (∀ i' < i, ∀ r', w.rows[i']? = some r' → token ∉ r'.literals) ∧
      map[w.poolAddress + j]? = some (i : Int)
  /-- Labels are those of the rows, whatever their spelling, and none is a literal's. -/
  labels_iff : ∀ name a, w'.labels[name]? = some a ↔
    name ≠ "" ∧ ∃ i r, w.rows[i]? = some r ∧ r.label = name ∧ a = w.rowAddress i
  /-- Two references to literals are to one word exactly if the literals are spelled alike. -/
  shared_iff : ∀ a s b t, (a, s) ∈ w'.references → (b, t) ∈ w'.references →
    Operand.isLiteral s = true → Operand.isLiteral t = true →
    (w'.memory.get? a = w'.memory.get? b ↔ s = t)
  /-- The words of the rows lie before the pool. -/
  row_le : ∀ (i : Nat) (r : Row), w.rows[i]? = some r → w.rowAddress i + r.size ≤ w.poolAddress
  /-- So do the words into which addresses are put. -/
  reference_lt : ∀ a s, (a, s) ∈ w'.references → w.base ≤ a ∧ a < w.poolAddress

theorem tokens_of_laidOut {w : Workspace} {d : Draft} (h : LaidOut w.base w.rows d) :
    w.tokens = d.pool.map (·.token) := by
  rw [h.pool_eq, map_token_poolOf, filterMap_token?_programCells h.sound, tokens]

namespace Assembly

variable {w w' : Workspace} {d : Draft}

theorem tokens_eq (h : w.Assembly d w') : w.tokens = d.pool.map (·.token) :=
  tokens_of_laidOut h.laidOut

theorem poolAddress_eq (h : w.Assembly d w') : w.poolAddress = d.address :=
  h.rowAddress_length_eq

/-- A literal of the program has its place in the pool. -/
theorem exists_of_tokens (h : w.Assembly d w') {j : Nat} {token : String}
    (hj : w.tokens[j]? = some token) :
    ∃ literal, d.pool[j]? = some literal ∧ literal.token = token := by
  rw [h.tokens_eq, List.getElem?_map] at hj
  exact Option.map_eq_some_iff.mp hj

theorem getElem?_symbols_of_tokens (h : w.Assembly d w') {j : Nat} {token : String}
    (hj : w.tokens[j]? = some token) : w'.symbols[token]? = some (w.poolAddress + j) := by
  obtain ⟨literal, hl, rfl⟩ := h.exists_of_tokens hj
  rw [getElem?_symbols, h.literals_eq, h.poolAddress_eq,
    getElem?_placeLiterals_of_getElem? (h.pool_eq ▸ nodup_poolOf _) hl]
  rfl

/-- A reference goes to the place of a cell that waits for its symbol. -/
theorem exists_of_references (h : w.Assembly d w') {a : Int} {s : String}
    (hm : (a, s) ∈ w'.references) :
    ∃ (n i : Nat) (c : Cell), (programCells w.rows)[n]? = some (c, i) ∧ c.symbol? = some s ∧
      a = w.base + n := by
  rw [h.references_eq, mem_openPlaces_iff] at hm
  obtain ⟨n, c, hc, hs, rfl⟩ := hm
  rw [List.getElem?_map, Option.map_eq_some_iff] at hc
  obtain ⟨⟨c, i⟩, hc, rfl⟩ := hc
  exact ⟨n, i, c, hc, hs, rfl⟩

/-- A word that refers to a symbol holds its address. -/
theorem get?_reference (h : w.Assembly d w') {a : Int} {s : String}
    (hm : (a, s) ∈ w'.references) : w'.memory.get? a = w'.symbols[s]? := by
  obtain ⟨n, i, c, hc, hs, rfl⟩ := h.exists_of_references hm
  rw [h.get?_cell hc]
  cases c with
  | word value => cases hs
  | label name => rw [← Option.some.inj hs]; rfl
  | literal token value => rw [← Option.some.inj hs]; rfl

/-- A reference that is spelled like a literal is one to a literal of the program. -/
theorem exists_tokens_of_references (h : w.Assembly d w') {a : Int} {s : String}
    (hm : (a, s) ∈ w'.references) (hs : Operand.isLiteral s = true) :
    ∃ j : Nat, w.tokens[j]? = some s := by
  obtain ⟨n, i, c, hc, hsymbol, -⟩ := h.exists_of_references hm
  have hspelled := spelled_of_programCells hc
  cases c with
  | word value => cases hsymbol
  | label name =>
    obtain rfl := Option.some.inj hsymbol
    cases hs.symm.trans hspelled.1
  | literal token value =>
    obtain rfl := Option.some.inj hsymbol
    refine List.getElem?_of_mem ?_
    rw [h.tokens_eq, h.pool_eq]
    exact token_mem_poolOf (List.mem_of_getElem? hc)

end Assembly

/-- **The pool.** An assembly that succeeds puts one word for each literal behind the program, with
the literal's value, and sends all references to the literal there. -/
theorem pooled_of_assemble {w w' : Workspace} {map : AddressMap}
    (h : w.assemble = (.ok map, w')) : w.Pooled map w' := by
  obtain ⟨⟨d, ha⟩, rfl⟩ := assemble_eq_ok h
  constructor
  case address => rw [ha.address_eq, ha.poolAddress_eq, ha.tokens_eq, List.length_map]
  case word =>
    intro j token hj
    obtain ⟨literal, hl, rfl⟩ := ha.exists_of_tokens hj
    rw [ha.poolAddress_eq]
    exact ⟨literal.value, Operand.constant?_eq_some_iff.mp
      (ha.spelled_of_mem_pool (List.mem_of_getElem? hl)).2, ha.get?_pool hl⟩
  case reference =>
    intro j token a hj hm
    rw [ha.get?_reference hm, ha.getElem?_symbols_of_tokens hj]
  case row =>
    intro j token hj
    obtain ⟨literal, hl, rfl⟩ := ha.exists_of_tokens hj
    have hmem : literal ∈ poolOf (programCells w.rows) := ha.pool_eq ▸ List.mem_of_getElem? hl
    obtain ⟨⟨r, hr, hm⟩, hfirst⟩ := first_row_of_mem_poolOf ha.laidOut.sound hmem
    refine ⟨literal.row, r, hr, hm, hfirst, ?_⟩
    rw [ha.getElem?_addressMap, ha.poolAddress_eq, if_pos (by omega),
      show (d.address + (j : Int) - d.address).toNat = j by omega, hl]
    rfl
  case labels_iff =>
    intro name a
    rw [ha.labels_eq, ha.laidOut.labels_iff]
    simp only [LabelAt, ha.rowAddress_eq]
  case shared_iff =>
    intro a s b t hs ht hs' ht'
    obtain ⟨i, hi⟩ := ha.exists_tokens_of_references hs hs'
    obtain ⟨j, hj⟩ := ha.exists_tokens_of_references ht ht'
    rw [ha.get?_reference hs, ha.get?_reference ht, ha.getElem?_symbols_of_tokens hi,
      ha.getElem?_symbols_of_tokens hj]
    constructor
    · intro heq
      have hij : i = j := by
        have heq := Option.some.inj heq
        omega
      subst hij
      exact Option.some.inj (hi.symm.trans hj)
    · rintro rfl
      rw [← ha.getElem?_symbols_of_tokens hi, ← ha.getElem?_symbols_of_tokens hj]
  case row_le =>
    intro i r hr
    have hi := (List.getElem?_eq_some_iff.mp hr).1
    have hlen := Row.length_cells (ha.laidOut.sound r (List.mem_of_getElem? hr))
    have hle : offset w.rows (i + 1) ≤ offset w.rows w.rows.length := offset_le_offset hi
    rw [offset_succ hr, hlen] at hle
    rw [poolAddress, ha.rowAddress_eq, ha.rowAddress_eq]
    omega
  case reference_lt =>
    intro a s hm
    obtain ⟨n, i, c, hc, -, rfl⟩ := ha.exists_of_references hm
    have hn := (List.getElem?_eq_some_iff.mp hc).1
    rw [ha.poolAddress_eq, ha.draft_address_eq]
    omega

/-- A program that uses three literals, one of them twice and one in a constant definition, with a
label that is spelled like a literal. -/
def sharedLiterals : Workspace where
  base := 8
  rows :=
    [⟨"=5", "LD", ["GR1", "=5"]⟩, ⟨"", "DC", ["=#FFFF"]⟩, ⟨"", "LAD", ["GR2", "=5"]⟩,
      ⟨"", "OUT", ["='A'", "=5"]⟩]

theorem pooled_sharedLiterals :
    sharedLiterals.tokens = ["=5", "=#FFFF", "='A'"] ∧
      ∃ map w', sharedLiterals.assemble = (.ok map, w') ∧ sharedLiterals.Pooled map w' := by
  have hok : sharedLiterals.assemble.1.isOk = true := by decide +kernel
  refine ⟨by decide +kernel, ?_⟩
  generalize h : sharedLiterals.assemble = outcome at hok
  rcases outcome with ⟨_ | map, w'⟩
  · cases hok
  · exact ⟨map, w', rfl, pooled_of_assemble h⟩

end Workspace

end WordMachine
