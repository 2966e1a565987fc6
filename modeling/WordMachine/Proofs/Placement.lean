import Mathlib
import WordMachine.Assembly.Workspace

/-!
# Placement

What is found in memory, in an address map and in a symbol table after words, rows and literals are
put at consecutive addresses.

## Main results

* `Memory.get?_load`: words loaded from an address on that is not below zero are found there, and
  all other words stay
* `Memory.load_fst`, `Memory.load_of_neg`: words are loaded all or none, by the first address
* `Workspace.getElem?_mapRows`: the rows of an address map
* `Workspace.getElem?_placeLiterals_of_getElem?`: a literal stands for the address of its place in
  the pool
-/

namespace WordMachine

namespace Memory

theorem exists_write_eq_ok (m : Memory) {a : Int} (h : 0 ≤ a) (w : Int) :
    ∃ n, m.write a w = .ok n := by
  cases a with
  | ofNat a => exact ⟨_, rfl⟩
  | negSucc a => exact absurd h (Int.not_le.2 (Int.negSucc_lt_zero a))

theorem nonneg_of_write_eq_ok {m n : Memory} {a w : Int} (h : m.write a w = .ok n) : 0 ≤ a := by
  cases a with
  | ofNat a => exact Int.natCast_nonneg a
  | negSucc a => cases h

@[simp] theorem load_nil (m : Memory) (base : Int) : m.load [] base = (.ok (), m) := rfl

theorem load_cons {m n : Memory} {base w : Int} (h : m.write base w = .ok n) (ws : List Int) :
    m.load (w :: ws) base = n.load ws (base + 1) := by
  simp only [load, placed, writeAll, h]

/-- Words loaded from an address on are found behind it in their order. -/
theorem get?_load (m : Memory) (ws : List Int) {base : Int} (h : 0 ≤ base) (a : Int) :
    (m.load ws base).2.get? a =
      if base ≤ a then (ws[(a - base).toNat]?).or (m.get? a) else m.get? a := by
  induction ws generalizing m base with
  | nil => simp
  | cons w ws ih =>
    obtain ⟨n, hn⟩ := m.exists_write_eq_ok h w
    rw [load_cons hn, ih n (by omega), get?_write hn]
    -- the address is before the first word, that of the first word, or one of the others
    rcases Int.lt_trichotomy a base with hlt | rfl | hgt
    · rw [if_neg (by omega), if_neg (by omega), if_neg (by omega)]
    · rw [if_neg (by omega), if_pos rfl, if_pos (Int.le_refl a), Int.sub_self]
      rfl
    · have hs : (a - base).toNat = (a - (base + 1)).toNat + 1 := by omega
      rw [if_pos (by omega), if_neg (by omega), if_pos (by omega), hs, List.getElem?_cons_succ]

theorem get?_load_add (m : Memory) {ws : List Int} {base : Int} (h : 0 ≤ base) {k : Nat} {w : Int}
    (hk : ws[k]? = some w) : (m.load ws base).2.get? (base + k) = some w := by
  rw [get?_load m ws h, if_pos (by omega), show (base + k - base).toNat = k by omega, hk]
  rfl

/-- Loading words changes nothing before and behind them. -/
theorem get?_load_of_outside (m : Memory) {ws : List Int} {base : Int} (h : 0 ≤ base ∨ ws = [])
    {a : Int} (ha : a < base ∨ base + ws.length ≤ a) :
    (m.load ws base).2.get? a = m.get? a := by
  obtain h | rfl := h
  · rw [get?_load m ws h]
    split
    · rw [List.getElem?_eq_none (by omega)]
      rfl
    · rfl
  · rfl

/-- Words can be loaded from an address on that is not below zero. -/
theorem load_fst (m : Memory) {ws : List Int} {base : Int} (h : 0 ≤ base ∨ ws = []) :
    (m.load ws base).1 = .ok () := by
  rcases h with h | rfl
  · induction ws generalizing m base with
    | nil => rfl
    | cons w ws ih =>
      obtain ⟨n, hn⟩ := m.exists_write_eq_ok h w
      rw [load_cons hn]
      exact ih n (by omega)
  · rfl

/-- Below zero not even the first word can be loaded. -/
theorem load_of_neg (m : Memory) {ws : List Int} {base : Int} (h : base < 0) (hne : ws ≠ []) :
    m.load ws base = (.error ⟨base⟩, m) := by
  cases ws with
  | nil => exact absurd rfl hne
  | cons w ws =>
    have hw : m.write base w = .error ⟨base⟩ := write_eq_error_iff.mpr ⟨h, rfl⟩
    simp only [load, placed, writeAll, hw]

/-- Words are written behind others if those could be written. -/
theorem writeAll_append (m : Memory) (first second : List (Int × Int)) :
    m.writeAll (first ++ second) =
      match m.writeAll first with
      | (.ok (), n) => n.writeAll second
      | (.error e, n) => (.error e, n) := by
  induction first generalizing m with
  | nil => rfl
  | cons write first ih =>
    obtain ⟨a, w⟩ := write
    rw [List.cons_append, writeAll, writeAll]
    cases m.write a w with
    | ok n => exact ih n
    | error e => rfl

end Memory

namespace Workspace

/-- The rows of consecutive addresses are found behind the first address in their order. -/
theorem getElem?_mapRows (map : AddressMap) (rows : List Nat) (base a : Int) :
    (mapRows map base rows)[a]? =
      if base ≤ a then ((rows[(a - base).toNat]?).map Int.ofNat).or map[a]? else map[a]? := by
  induction rows generalizing map base with
  | nil => simp [mapRows]
  | cons row rows ih =>
    rw [mapRows, ih, Std.ExtTreeMap.getElem?_insert]
    -- as for the words of memory
    rcases Int.lt_trichotomy a base with hlt | rfl | hgt
    · rw [if_neg (by omega), if_neg (by simp; omega), if_neg (by omega)]
    · rw [if_neg (by omega), if_pos (by simp), if_pos (Int.le_refl a), Int.sub_self]
      rfl
    · have hs : (a - base).toNat = (a - (base + 1)).toNat + 1 := by omega
      rw [if_pos (by omega), if_neg (by simp; omega), if_pos (by omega), hs,
        List.getElem?_cons_succ]

/-- A symbol that is no literal of the pool keeps its address. -/
theorem getElem?_placeLiterals_of_not_mem {pool : List Literal} {symbol : String}
    (h : symbol ∉ pool.map (·.token)) (address : Int) (symbols : SymbolTable) :
    (placeLiterals address pool symbols)[symbol]? = symbols[symbol]? := by
  induction pool generalizing address symbols with
  | nil => rfl
  | cons literal pool ih =>
    rw [List.map_cons, List.mem_cons, not_or] at h
    rw [placeLiterals, ih h.2, Std.ExtTreeMap.getElem?_insert, if_neg (by simpa using Ne.symm h.1)]

/-- A literal of the pool stands for the address of its place. -/
theorem getElem?_placeLiterals_of_getElem? {pool : List Literal}
    (distinct : (pool.map (·.token)).Nodup) {j : Nat} {literal : Literal}
    (h : pool[j]? = some literal) (address : Int) (symbols : SymbolTable) :
    (placeLiterals address pool symbols)[literal.token]? = some (address + j) := by
  induction pool generalizing address symbols j with
  | nil => simp at h
  | cons first pool ih =>
    rw [List.map_cons, List.nodup_cons] at distinct
    cases j with
    | zero =>
      -- the other literals are spelled otherwise and leave the first one where it is
      obtain rfl : first = literal := by simpa using h
      rw [placeLiterals, getElem?_placeLiterals_of_not_mem distinct.1,
        Std.ExtTreeMap.getElem?_insert_self]
      simp
    | succ j =>
      rw [placeLiterals, ih distinct.2 (by simpa using h)]
      congr 1
      omega

theorem mem_placeLiterals_iff {address : Int} {pool : List Literal} {token : String}
    (distinct : (pool.map (·.token)).Nodup) :
    token ∈ placeLiterals address pool ∅ ↔ token ∈ pool.map (·.token) := by
  rw [Std.ExtTreeMap.mem_iff_isSome_getElem?]
  constructor
  · intro h
    by_contra hno
    rw [getElem?_placeLiterals_of_not_mem hno] at h
    simp at h
  · intro h
    obtain ⟨literal, hl, rfl⟩ := List.mem_map.mp h
    obtain ⟨j, hj⟩ := List.getElem?_of_mem hl
    rw [getElem?_placeLiterals_of_getElem? distinct hj]
    rfl

end Workspace

end WordMachine
