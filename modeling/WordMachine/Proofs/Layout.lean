import Mathlib
import WordMachine.Assembly.Workspace

/-!
# Layout of a program

The first pass lays out the cells of the rows one row behind the other. A row that is accepted adds
its cells and binds its label to the address of the first of them; the draft of a program is the
empty draft extended by all its rows.

## Main definitions

* `Row.cells`, `Row.complaint?`: the cells that a row makes, and the complaint for which it is
  refused
* `Draft.labelComplaint?`, `Draft.Takes`, `Draft.extend`: when a draft takes a row, and the draft
  with it
* `offset`, `programCells`: where the cells of a row start, and the cells of all rows
* `LaidOut`: what holds of the draft of a program

## Main results

* `Draft.addRow_eq_ok_iff`: a row is added exactly if the draft takes it
* `getElem?_programCells`: the cells of a row start at its offset
* `LaidOut.addRow`, `Draft.laidOut_of_ofRows`: each row keeps the draft laid out, so the draft of a
  program is
-/

namespace WordMachine

/-! ## The cells of a row -/

/-- The cells of a row's items up to the first complaint. -/
def cellsOf : List Item → List Cell
  | .ok cell :: items => cell :: cellsOf items
  | _ => []

/-- The first complaint among a row's items. -/
def complaintOf? : List Item → Option Complaint
  | [] => none
  | .ok _ :: items => complaintOf? items
  | .error c :: _ => some c

namespace Row

/-- The cells that a row makes. -/
def cells (r : Row) : List Cell :=
  cellsOf r.items

/-- The complaint about what a row makes. -/
def complaint? (r : Row) : Option Complaint :=
  complaintOf? r.items

end Row

namespace Draft

/-! ## The draft with one more row -/

/-- The draft with more cells of a row. -/
def append (d : Draft) (cells : List Cell) (index : Nat) : Draft :=
  { d with cells := d.cells ++ (cells.map fun cell => (cell, index)).toArray }

@[simp] theorem append_nil (d : Draft) (index : Nat) : d.append [] index = d := by
  simp [append]

theorem append_cons (d : Draft) (cell : Cell) (cells : List Cell) (index : Nat) :
    d.append (cell :: cells) index =
      { d with cells := d.cells.push (cell, index) }.append cells index := by
  simp [append]

/-- At an address that is not below zero the items of a row are added up to the first complaint. -/
theorem addItems_of_nonneg {d : Draft} (h : 0 ≤ d.address) (row : Row) (index : Nat)
    (items : List Item) :
    d.addItems row index items =
      ((complaintOf? items).elim (.ok ()) fun c => .error (.refused (row.diagnostic index c)),
        d.append (cellsOf items) index) := by
  induction items generalizing d with
  | nil => simp [addItems, complaintOf?, cellsOf]
  | cons item items ih =>
    cases item with
    | error c => simp [addItems, complaintOf?, cellsOf]
    | ok cell =>
      -- the next cell has an address as well, so the other items are added to this draft
      have hnext : 0 ≤ ({ d with cells := d.cells.push (cell, index) } : Draft).address := by
        simp only [address, Array.size_push] at h ⊢
        omega
      rw [addItems, if_neg (by omega), ih hnext, cellsOf, append_cons, complaintOf?]

/-- Items are added if none of them is a complaint and there is an address for them. -/
theorem addItems_eq_ok_iff {d d' : Draft} {row : Row} {index : Nat} {items : List Item} :
    d.addItems row index items = (.ok (), d') ↔
      complaintOf? items = none ∧ (cellsOf items = [] ∨ 0 ≤ d.address) ∧
        d' = d.append (cellsOf items) index := by
  by_cases h : 0 ≤ d.address
  · rw [addItems_of_nonneg h]
    cases complaintOf? items with
    | none =>
      rw [Prod.mk.injEq, eq_comm (b := d')]
      simp [h]
    | some c => simp
  · -- below zero only a row without cells can be added
    cases items with
    | nil =>
      rw [cellsOf.eq_def, complaintOf?, append_nil, addItems, Prod.mk.injEq, eq_comm (a := d)]
      simp
    | cons item items =>
      cases item with
      | error c => simp [addItems, complaintOf?]
      | ok cell =>
        rw [addItems, if_pos (by omega)]
        simp [cellsOf, h]

/-- The draft with a row's label bound to the next address. -/
def bind (d : Draft) (row : Row) : Draft :=
  { d with labels := if row.label = "" then d.labels else d.labels.insert row.label d.address }

/-- The complaint about a row's label: it is spelled like a register or a number, or it is bound
already. -/
def labelComplaint? (d : Draft) (row : Row) : Option Complaint :=
  if row.label = "" then none
  else if Operand.isRegisterLike row.label || (Operand.number? row.label).isSome then
    some (.invalidLabelName row.label)
  else
    match Operand.overlong? row.label with
    | some digits => some (.overlongNumber digits)
    | none => if row.label ∈ d.labels then some (.duplicateLabel row.label) else none

theorem bindLabel_eq (d : Draft) (row : Row) :
    d.bindLabel row = (d.labelComplaint? row).elim (.ok (d.bind row)) .error := by
  unfold bindLabel labelComplaint? bind
  split
  · rfl
  · split
    · rfl
    · cases ho : Operand.overlong? row.label with
      | some digits => rw [Operand.readable_of_some ho, Option.elim_some]
      | none =>
        rw [Operand.readable_of_none ho]
        split <;> rfl

theorem not_mem_labels {d : Draft} {row : Row} (h : d.labelComplaint? row = none)
    (hl : row.label ≠ "") : row.label ∉ d.labels := by
  intro hm
  rw [labelComplaint?, if_neg hl, if_pos hm] at h
  split at h
  · cases h
  · split at h <;> cases h

/-- The draft takes a row: its label can be bound, nothing is wrong with what it makes, and there
is an address for its cells. -/
structure Takes (d : Draft) (row : Row) : Prop where
  label : d.labelComplaint? row = none
  sound : row.complaint? = none
  place : row.cells = [] ∨ 0 ≤ d.address

/-- The draft with a row that it takes. -/
def extend (d : Draft) (row : Row) (index : Nat) : Draft :=
  ((d.bind row).noteStart row).append row.cells index

@[simp] theorem address_bind (d : Draft) (row : Row) : (d.bind row).address = d.address := rfl

@[simp] theorem address_noteStart (d : Draft) (row : Row) :
    (d.noteStart row).address = d.address := by
  unfold noteStart
  split <;> rfl

/-- A row is added exactly if the draft takes it. -/
theorem addRow_eq_ok_iff {d d' : Draft} {row : Row} {index : Nat} :
    d.addRow row index = (.ok (), d') ↔ d.Takes row ∧ d' = d.extend row index := by
  rw [addRow, bindLabel_eq]
  cases hc : d.labelComplaint? row with
  | some c =>
    have hno : ¬d.Takes row := by
      intro h
      rw [h.label] at hc
      cases hc
    simp [hno]
  | none =>
    simp only [Option.elim_none, addItems_eq_ok_iff, address_noteStart, address_bind]
    constructor
    · rintro ⟨hs, hp, he⟩
      exact ⟨⟨hc, hs, hp⟩, he⟩
    · rintro ⟨h, he⟩
      exact ⟨h.sound, h.place, he⟩

/-- At an address that is not below zero a row is added up to the first complaint. -/
theorem addRow_of_nonneg {d : Draft} (h : 0 ≤ d.address) (row : Row) (index : Nat) :
    d.addRow row index =
      match d.labelComplaint? row with
      | some c => (.error (.refused (row.diagnostic index c)), d)
      | none => (row.complaint?.elim (.ok ()) fun c => .error (.refused (row.diagnostic index c)),
          d.extend row index) := by
  rw [addRow, bindLabel_eq]
  cases d.labelComplaint? row with
  | some c => rfl
  | none =>
    have hnext : 0 ≤ ((d.bind row).noteStart row).address := by simpa using h
    exact addItems_of_nonneg hnext row index row.items

theorem addRows_cons_eq_ok {d d' : Draft} {index : Nat} {row : Row} {rows : List Row}
    (h : d.addRows index (row :: rows) = (.ok (), d')) :
    d.Takes row ∧ (d.extend row index).addRows (index + 1) rows = (.ok (), d') := by
  rw [addRows] at h
  split at h
  · next d₁ h₁ =>
    obtain ⟨ht, rfl⟩ := addRow_eq_ok_iff.mp h₁
    exact ⟨ht, h⟩
  · cases h

@[simp] theorem base_extend (d : Draft) (row : Row) (index : Nat) :
    (d.extend row index).base = d.base := by
  unfold extend append noteStart
  split <;> rfl

@[simp] theorem cells_extend (d : Draft) (row : Row) (index : Nat) :
    (d.extend row index).cells.toList = d.cells.toList ++ row.cells.map fun c => (c, index) := by
  unfold extend noteStart
  split <;> simp [append, bind]

@[simp] theorem labels_extend (d : Draft) (row : Row) (index : Nat) :
    (d.extend row index).labels =
      if row.label = "" then d.labels else d.labels.insert row.label d.address := by
  unfold extend append noteStart
  split <;> rfl

@[simp] theorem start_extend (d : Draft) (row : Row) (index : Nat) :
    (d.extend row index).start =
      if row.directive? = some .start then some d.address else d.start := by
  unfold extend append noteStart
  split <;> rfl

@[simp] theorem entry_extend (d : Draft) (row : Row) (index : Nat) :
    (d.extend row index).entry =
      if row.directive? = some .start then row.given.head?.or d.entry else d.entry := by
  unfold extend append noteStart
  split <;> rfl

@[simp] theorem refused_extend (d : Draft) (row : Row) (index : Nat) :
    (d.extend row index).refused = d.refused := by
  unfold extend append noteStart
  split <;> rfl

end Draft

/-! ## The cells of a program -/

/-- The number of cells before the row with an index. -/
def offset (rows : List Row) (i : Nat) : Nat :=
  ((rows.take i).map fun r => r.cells.length).sum

/-- The cells of all rows, each with the index of its row. -/
def programCells (rows : List Row) : List (Cell × Nat) :=
  rows.zipIdx.flatMap fun (r, i) => r.cells.map fun c => (c, i)

theorem offset_succ {rows : List Row} {i : Nat} {r : Row} (h : rows[i]? = some r) :
    offset rows (i + 1) = offset rows i + r.cells.length := by
  unfold offset
  rw [List.take_add_one, h]
  simp

theorem offset_le_offset {rows : List Row} {i j : Nat} (h : i ≤ j) :
    offset rows i ≤ offset rows j := by
  unfold offset
  obtain ⟨k, rfl⟩ := Nat.exists_eq_add_of_le h
  rw [List.take_add, List.map_append, List.sum_append]
  omega

theorem offset_append_of_le {rows : List Row} {i : Nat} (h : i ≤ rows.length) (rest : List Row) :
    offset (rows ++ rest) i = offset rows i := by
  unfold offset
  rw [List.take_append_of_le_length h]

@[simp] theorem programCells_nil : programCells [] = [] := rfl

theorem programCells_snoc (rows : List Row) (r : Row) :
    programCells (rows ++ [r]) = programCells rows ++ r.cells.map fun c => (c, rows.length) := by
  simp [programCells, List.zipIdx_append]

theorem length_programCells (rows : List Row) :
    (programCells rows).length = offset rows rows.length := by
  induction rows using List.reverseRecOn with
  | nil => rfl
  | append_singleton rows r ih =>
    rw [programCells_snoc, List.length_append, ih, List.length_append, List.length_singleton,
      offset_succ (r := r) (by simp), offset_append_of_le (Nat.le_refl _), List.length_map]

/-- The cells of a row lie before those of the rows behind it. -/
theorem offset_add_lt {rows : List Row} {i j k : Nat} {r : Row} (hr : rows[i]? = some r)
    (hk : k < r.cells.length) (hij : i < j) : offset rows i + k < offset rows j := by
  have hle : offset rows (i + 1) ≤ offset rows j := offset_le_offset hij
  rw [offset_succ hr] at hle
  omega

/-- An element of a list with one more behind it. -/
theorem getElem?_snoc_iff {α : Type} {xs : List α} {x y : α} {i : Nat} :
    (xs ++ [x])[i]? = some y ↔ xs[i]? = some y ∨ i = xs.length ∧ x = y := by
  rcases Nat.lt_trichotomy i xs.length with h | rfl | h
  · rw [List.getElem?_append_left h]
    constructor
    · exact .inl
    · rintro (hx | ⟨hi, -⟩)
      · exact hx
      · exact absurd hi (Nat.ne_of_lt h)
  · simp
  · rw [List.getElem?_eq_none (by simp; omega), List.getElem?_eq_none (by omega)]
    simp only [reduceCtorEq, false_or, false_iff, not_and]
    omega

/-- The cells of a row start at its offset. -/
theorem getElem?_programCells {rows : List Row} {n i : Nat} {c : Cell} :
    (programCells rows)[n]? = some (c, i) ↔
      ∃ r k, rows[i]? = some r ∧ r.cells[k]? = some c ∧ n = offset rows i + k := by
  induction rows using List.reverseRecOn generalizing n with
  | nil => simp
  | append_singleton rows r ih =>
    rw [programCells_snoc]
    constructor
    · intro h
      -- the cell is that of an earlier row, or one of the last row
      rcases Nat.lt_or_ge n (programCells rows).length with hn | hn
      · rw [List.getElem?_append_left hn, ih] at h
        obtain ⟨s, k, hs, hk, rfl⟩ := h
        have hi := (List.getElem?_eq_some_iff.mp hs).1
        exact ⟨s, k, getElem?_snoc_iff.mpr (.inl hs), hk,
          by rw [offset_append_of_le (Nat.le_of_lt hi)]⟩
      · rw [List.getElem?_append_right hn, List.getElem?_map, Option.map_eq_some_iff] at h
        obtain ⟨c', hc, he⟩ := h
        obtain ⟨rfl, rfl⟩ := Prod.mk.inj he
        refine ⟨r, _, getElem?_snoc_iff.mpr (.inr ⟨rfl, rfl⟩), hc, ?_⟩
        rw [offset_append_of_le (Nat.le_refl _), ← length_programCells]
        omega
    · rintro ⟨s, k, hs, hk, rfl⟩
      rcases getElem?_snoc_iff.mp hs with hs | ⟨rfl, rfl⟩
      · -- an earlier row ends before the last one starts
        have hi := (List.getElem?_eq_some_iff.mp hs).1
        have hlt := offset_add_lt hs (List.getElem?_eq_some_iff.mp hk).1 hi
        rw [← length_programCells] at hlt
        rw [offset_append_of_le (Nat.le_of_lt hi), List.getElem?_append_left hlt, ih]
        exact ⟨s, k, hs, hk, rfl⟩
      · rw [offset_append_of_le (Nat.le_refl _), ← length_programCells,
          List.getElem?_append_right (by omega), List.getElem?_map, Nat.add_sub_cancel_left, hk]
        rfl

/-! ## The draft of a program -/

/-- A row with a label starts at an address. -/
def LabelAt (base : Int) (rows : List Row) (name : String) (a : Int) : Prop :=
  ∃ i r, rows[i]? = some r ∧ r.label = name ∧ a = base + offset rows i

theorem labelAt_snoc_iff {base : Int} {rows : List Row} {row : Row} {name : String} {a : Int} :
    LabelAt base (rows ++ [row]) name a ↔
      LabelAt base rows name a ∨ row.label = name ∧ a = base + offset rows rows.length := by
  constructor
  · rintro ⟨i, r, hr, hl, ha⟩
    rcases getElem?_snoc_iff.mp hr with hr | ⟨rfl, rfl⟩
    · have hi := (List.getElem?_eq_some_iff.mp hr).1
      rw [offset_append_of_le (Nat.le_of_lt hi)] at ha
      exact .inl ⟨i, r, hr, hl, ha⟩
    · rw [offset_append_of_le (Nat.le_refl _)] at ha
      exact .inr ⟨hl, ha⟩
  · rintro (⟨i, r, hr, hl, ha⟩ | ⟨hl, ha⟩)
    · have hi := (List.getElem?_eq_some_iff.mp hr).1
      refine ⟨i, r, getElem?_snoc_iff.mpr (.inl hr), hl, ?_⟩
      rwa [offset_append_of_le (Nat.le_of_lt hi)]
    · refine ⟨rows.length, row, getElem?_snoc_iff.mpr (.inr ⟨rfl, rfl⟩), hl, ?_⟩
      rwa [offset_append_of_le (Nat.le_refl _)]

/-- What holds of the draft of the rows of a program: its cells are those of the rows, it has bound
just the labels of the rows, each to the address of the row, and no row was refused. -/
structure LaidOut (base : Int) (rows : List Row) (d : Draft) : Prop where
  base_eq : d.base = base
  cells_eq : d.cells.toList = programCells rows
  labels_iff : ∀ name a, d.labels[name]? = some a ↔ name ≠ "" ∧ LabelAt base rows name a
  distinct : rows.Pairwise fun r s => r.label = s.label → r.label = ""
  sound : ∀ r ∈ rows, r.complaint? = none
  place : programCells rows = [] ∨ 0 ≤ base
  start_ge : ∀ a, d.start = some a → base ≤ a
  refused_eq : d.refused = none

namespace LaidOut

variable {base : Int} {rows : List Row} {d : Draft}

theorem address_eq (h : LaidOut base rows d) :
    d.address = base + offset rows rows.length := by
  rw [Draft.address, h.base_eq, ← length_programCells, ← h.cells_eq, Array.length_toList]

/-- A label of a row is one that the draft has bound. -/
theorem mem_labels_iff (h : LaidOut base rows d) (name : String) :
    name ∈ d.labels ↔ name ≠ "" ∧ name ∈ rows.map Row.label := by
  rw [Std.ExtTreeMap.mem_iff_isSome_getElem?, Option.isSome_iff_exists, List.mem_map]
  constructor
  · rintro ⟨a, ha⟩
    obtain ⟨hne, i, r, hr, hl, -⟩ := (h.labels_iff name a).mp ha
    exact ⟨hne, r, List.mem_of_getElem? hr, hl⟩
  · rintro ⟨hne, r, hr, hl⟩
    obtain ⟨i, hi⟩ := List.getElem?_of_mem hr
    exact ⟨_, (h.labels_iff name _).mpr ⟨hne, i, r, hi, hl, rfl⟩⟩

/-- The empty draft is that of no rows. -/
theorem empty (base : Int) : LaidOut base [] { base } where
  base_eq := rfl
  cells_eq := rfl
  labels_iff := by simp [LabelAt]
  distinct := by simp
  sound := by simp
  place := .inl rfl
  start_ge := nofun
  refused_eq := rfl

/-- The draft with one more row that it takes is that of the rows with the one more. -/
theorem extend (h : LaidOut base rows d) {row : Row} (ht : d.Takes row) :
    LaidOut base (rows ++ [row]) (d.extend row rows.length) where
  base_eq := by rw [Draft.base_extend, h.base_eq]
  cells_eq := by rw [Draft.cells_extend, h.cells_eq, programCells_snoc]
  labels_iff := by
    intro name a
    rw [Draft.labels_extend, h.address_eq, labelAt_snoc_iff]
    split
    · next hl =>
      -- a row without a label adds none
      rw [h.labels_iff, hl]
      constructor
      · rintro ⟨hne, hat⟩
        exact ⟨hne, .inl hat⟩
      · rintro ⟨hne, hat | ⟨he, -⟩⟩
        · exact ⟨hne, hat⟩
        · exact absurd he.symm hne
    · next hl =>
      rw [Std.ExtTreeMap.getElem?_insert]
      by_cases hn : row.label = name
      · -- the label was not bound before, so only the new row can be meant
        have hfresh : ¬LabelAt base rows name a := by
          intro hat
          refine Draft.not_mem_labels ht.label hl (Std.ExtTreeMap.mem_iff_isSome_getElem?.mpr ?_)
          rw [(h.labels_iff row.label a).mpr ⟨hl, hn ▸ hat⟩]
          rfl
        simp [hn, hfresh, hn ▸ hl, eq_comm]
      · simp [hn, h.labels_iff]
  distinct := by
    refine List.pairwise_append.mpr ⟨h.distinct, List.pairwise_singleton _ _, ?_⟩
    intro r hr s hs he
    obtain rfl := List.mem_singleton.mp hs
    -- a label of an earlier row is bound, so the new row could not be taken with it
    by_contra hne
    exact Draft.not_mem_labels ht.label (he ▸ hne)
      ((h.mem_labels_iff _).mpr ⟨he ▸ hne, he ▸ List.mem_map_of_mem hr⟩)
  sound := by
    intro r hr
    rcases List.mem_append.mp hr with hr | hr
    · exact h.sound r hr
    · exact List.mem_singleton.mp hr ▸ ht.sound
  place := by
    rw [programCells_snoc, List.append_eq_nil_iff]
    rcases h.place with hp | hp
    · rcases ht.place with hc | hc
      · exact .inl ⟨hp, by rw [hc, List.map_nil]⟩
      · -- the first cell of the program is one of this row, at the base
        refine .inr ?_
        rw [h.address_eq, ← length_programCells, hp] at hc
        simpa using hc
    · exact .inr hp
  start_ge := by
    intro a ha
    rw [Draft.start_extend, h.address_eq] at ha
    split at ha
    · have hstart := Option.some.inj ha
      omega
    · exact h.start_ge a ha
  refused_eq := by rw [Draft.refused_extend, h.refused_eq]

theorem addRow {d' : Draft} {row : Row} (h : LaidOut base rows d)
    (hd : d.addRow row rows.length = (.ok (), d')) : LaidOut base (rows ++ [row]) d' := by
  obtain ⟨ht, rfl⟩ := Draft.addRow_eq_ok_iff.mp hd
  exact h.extend ht

theorem addRows {d' : Draft} {more : List Row} (h : LaidOut base rows d)
    (hd : d.addRows rows.length more = (.ok (), d')) : LaidOut base (rows ++ more) d' := by
  induction more generalizing rows d with
  | nil =>
    obtain rfl : d = d' := (Prod.mk.inj hd).2
    rwa [List.append_nil]
  | cons row more ih =>
    obtain ⟨ht, hd⟩ := Draft.addRows_cons_eq_ok hd
    have hrest := ih (h.extend ht) (by rwa [List.length_append, List.length_singleton])
    rwa [List.append_assoc, List.singleton_append] at hrest

end LaidOut

/-- The first pass lays out all rows of a program that it accepts. -/
theorem Draft.laidOut_of_ofRows {base : Int} {rows : List Row} {d : Draft}
    (h : Draft.ofRows base rows = (.ok (), d)) : LaidOut base rows d :=
  (LaidOut.empty base).addRows h

end WordMachine
