import WordMachine.Proofs.AddressMap

/-!
# The word store

A memory is changed by calls that write a word, or load words at consecutive addresses, and some of
these calls fail. Whatever the calls are, the memory is the finite map of the writes that have
succeeded: at each address the last of them counts, in whichever order the addresses were written.
The dump is this map by increasing addresses, and a memory that is filled from a dump is the same
memory again.

## Main definitions

* `Memory.Call`, `Memory.call`, `Memory.after`: calls that change a memory
* `Memory.written`, `Memory.history`: the writes of a call, and of all calls, that have succeeded
* `Memory.lastWord?`: the word written last at an address
* `Memory.Recorded`: a memory is the map of the writes that have succeeded

## Main results

* `Memory.get?_writeAll`, `Memory.get?_after`: what is found after one call, and after all calls
* `Memory.writeAll_cells`: a memory is filled from its own dump
* `Memory.recorded_of_calls`: any calls on an empty memory, and any two sequences of calls
-/

namespace WordMachine.Memory

/-! ## Calls -/

/-- A call that changes a memory. -/
inductive Call where
  /-- A word is written at an address. -/
  | write (address w : Int)
  /-- Words are written at consecutive addresses from a base on. -/
  | load (ws : List Int) (base : Int)
deriving DecidableEq, Repr

/-- The words that a call is to write, in turn. -/
def Call.words : Call → List (Int × Int)
  | write address w => [(address, w)]
  | load ws base => placed base ws

/-- How a call ends, and the memory after it. -/
def call (m : Memory) : Call → Except NegativeAddress Unit × Memory
  | .write address w =>
    match m.write address w with
    | .ok n => (.ok (), n)
    | .error e => (.error e, m)
  | .load ws base => m.load ws base

/-- The memory after calls, those that fail included. -/
def after (m : Memory) : List Call → Memory
  | [] => m
  | c :: cs => (m.call c).2.after cs

/-- The writes that succeed of words that are to be written in turn: all before the first that
fails. -/
def written (m : Memory) : List (Int × Int) → List (Int × Int)
  | [] => []
  | (address, w) :: rest =>
    match m.write address w with
    | .ok n => (address, w) :: n.written rest
    | .error _ => []

/-- The writes of calls that have succeeded, in their order. -/
def history (m : Memory) : List Call → List (Int × Int)
  | [] => []
  | c :: cs => m.written c.words ++ (m.call c).2.history cs

/-- The word written last at an address. -/
def lastWord? (writes : List (Int × Int)) (a : Int) : Option Int :=
  writes.reverse.lookup a

/-- The words of a memory by increasing addresses, to be written in turn. -/
def cells (m : Memory) : List (Int × Int) :=
  m.dump.map fun x => ((x.1 : Int), x.2)

/-- A memory is the map of the writes that have succeeded. -/
structure Recorded (writes : List (Int × Int)) (m : Memory) : Prop where
  /-- The word written last at an address is read there, and zero where none was written. -/
  read (a : Int) : m.read a = (lastWord? writes a).getD 0
  /-- The dump is ordered by addresses, and no address is in it twice. -/
  sorted : m.dump.Pairwise fun x y => x.1 < y.1
  /-- The dump holds the last words. -/
  mem_cells (a w : Int) : (a, w) ∈ m.cells ↔ lastWord? writes a = some w
  /-- The addresses of the dump are those that were written. -/
  addresses (a : Int) : (∃ w, (a, w) ∈ m.cells) ↔ ∃ w, (a, w) ∈ writes
  /-- The size is the length of the dump. -/
  size : m.size = m.dump.length
  /-- An address is contained if it is in the dump. -/
  contains (a : Int) : m.contains a = true ↔ ∃ w, (a, w) ∈ m.cells
  /-- A memory that is filled from the dump is the same. -/
  refilled : (∅ : Memory).writeAll m.cells = (.ok (), m)

/-! ## The last write -/

section LastWord

variable {writes : List (Int × Int)} {a w : Int}

/-- The word written last at an address is that of a write with no other to this address behind
it. -/
theorem lastWord?_eq_some_iff :
    lastWord? writes a = some w ↔
      ∃ before behind, writes = before ++ (a, w) :: behind ∧ ∀ x ∈ behind, x.1 ≠ a := by
  simp only [lastWord?, List.lookup_eq_some_iff, bne_iff_ne]
  constructor
  · rintro ⟨behind, before, hsplit, hne⟩
    refine ⟨before.reverse, behind.reverse, ?_, ?_⟩
    · rw [← writes.reverse_reverse, hsplit, List.reverse_append, List.reverse_cons,
        List.append_assoc, List.singleton_append]
    · intro x hx
      exact (hne x (List.mem_reverse.mp hx)).symm
  · rintro ⟨before, behind, rfl, hne⟩
    refine ⟨behind.reverse, before.reverse, ?_, ?_⟩
    · rw [List.reverse_append, List.reverse_cons, List.append_assoc, List.singleton_append]
    · intro x hx
      exact (hne x (List.mem_reverse.mp hx)).symm

theorem mem_of_lastWord? (h : lastWord? writes a = some w) : (a, w) ∈ writes := by
  obtain ⟨before, behind, rfl, -⟩ := lastWord?_eq_some_iff.mp h
  exact List.mem_append_right _ List.mem_cons_self

/-- An address has a last word if it was written. -/
theorem exists_lastWord?_iff : (∃ w, lastWord? writes a = some w) ↔ ∃ w, (a, w) ∈ writes := by
  constructor
  · rintro ⟨w, h⟩
    exact ⟨w, mem_of_lastWord? h⟩
  · rintro ⟨w, h⟩
    rw [← Option.isSome_iff_exists, lastWord?, List.lookup_isSome_iff]
    exact ⟨(a, w), List.mem_reverse.mpr h, beq_self_eq_true a⟩

/-- If no address is written twice, every word is the last at its address. -/
theorem lastWord?_eq_some_iff_mem (h : writes.Pairwise fun x y => x.1 ≠ y.1) :
    lastWord? writes a = some w ↔ (a, w) ∈ writes := by
  refine ⟨mem_of_lastWord?, ?_⟩
  intro hmem
  obtain ⟨before, behind, rfl⟩ := List.append_of_mem hmem
  refine lastWord?_eq_some_iff.mpr ⟨before, behind, rfl, ?_⟩
  intro x hx
  exact (List.rel_of_pairwise_cons (List.pairwise_append.mp h).2.1 hx).symm

theorem lastWord?_append (first second : List (Int × Int)) (a : Int) :
    lastWord? (first ++ second) a = (lastWord? second a).or (lastWord? first a) := by
  rw [lastWord?, List.reverse_append, List.lookup_append]
  rfl

theorem lastWord?_singleton (b w a : Int) :
    lastWord? [(b, w)] a = if a = b then some w else none := by
  by_cases h : a = b
  · rw [if_pos h, lastWord?, List.reverse_singleton, List.lookup_cons, beq_iff_eq.mpr h]
  · rw [if_neg h, lastWord?, List.reverse_singleton, List.lookup_cons, beq_false_of_ne h]
    rfl

end LastWord

/-! ## What is found after calls -/

variable {m : Memory}

/-- Words are written in turn: the last that succeeds at an address is found there. -/
theorem get?_writeAll (m : Memory) (words : List (Int × Int)) (a : Int) :
    (m.writeAll words).2.get? a = (lastWord? (m.written words) a).or (m.get? a) := by
  -- Induction on the words: the first is written, or ends the call.
  induction words generalizing m with
  | nil => rfl
  | cons x words ih =>
    obtain ⟨b, w⟩ := x
    rw [writeAll, written]
    cases hw : m.write b w with
    | error e => rfl
    | ok n =>
      dsimp only
      rw [ih n, ← List.singleton_append, lastWord?_append, lastWord?_singleton, get?_write hw,
        Option.or_assoc]
      split
      · rfl
      · rw [Option.none_or]

theorem call_eq_writeAll (m : Memory) (c : Call) : m.call c = m.writeAll c.words := by
  cases c with
  | write a w =>
    rw [call, Call.words, writeAll]
    cases m.write a w <;> rfl
  | load ws base => rfl

/-- After calls the word of the last write that has succeeded is found, or the word that was there
before. -/
theorem get?_after (m : Memory) (cs : List Call) (a : Int) :
    (m.after cs).get? a = (lastWord? (m.history cs) a).or (m.get? a) := by
  -- Induction on the calls: what the later calls write hides what the first one wrote.
  induction cs generalizing m with
  | nil => rfl
  | cons c cs ih =>
    rw [after, history, ih, lastWord?_append, call_eq_writeAll, get?_writeAll, Option.or_assoc]

/-- After calls on an empty memory the words of the last writes are found, and no others. -/
theorem get?_after_empty (cs : List Call) (a : Int) :
    ((∅ : Memory).after cs).get? a = lastWord? ((∅ : Memory).history cs) a := by
  rw [get?_after, get?_empty, Option.or_none]

/-! ## Dumps -/

theorem mem_cells_iff {a w : Int} : (a, w) ∈ m.cells ↔ m.get? a = some w := by
  rw [cells, List.mem_map]
  constructor
  · rintro ⟨⟨b, w⟩, hmem, heq⟩
    cases heq
    exact mem_dump.mp hmem
  · intro h
    cases a with
    | ofNat b => exact ⟨(b, w), mem_dump.mpr h, rfl⟩
    | negSucc b => cases h

theorem pairwise_cells (m : Memory) : m.cells.Pairwise fun x y => x.1 ≠ y.1 := by
  refine List.pairwise_map.mpr (m.pairwise_dump.imp ?_)
  intro x y hlt
  omega

/-- Words at addresses from zero on are all written. -/
theorem written_of_nonneg (m : Memory) {words : List (Int × Int)} (h : ∀ x ∈ words, 0 ≤ x.1) :
    (m.writeAll words).1 = .ok () ∧ m.written words = words := by
  induction words generalizing m with
  | nil => exact ⟨rfl, rfl⟩
  | cons x words ih =>
    rw [List.forall_mem_cons] at h
    obtain ⟨n, hw⟩ := m.exists_write_eq_ok h.1 x.2
    obtain ⟨hok, hwritten⟩ := ih n h.2
    rw [writeAll, written, hw]
    exact ⟨hok, congrArg (x :: ·) hwritten⟩

/-- A memory is filled from its own dump. -/
theorem writeAll_cells (m : Memory) : (∅ : Memory).writeAll m.cells = (.ok (), m) := by
  have hnonneg : ∀ x ∈ m.cells, 0 ≤ x.1 := by
    intro x hx
    obtain ⟨y, -, rfl⟩ := List.mem_map.mp hx
    exact Int.natCast_nonneg y.1
  obtain ⟨hok, hwritten⟩ := written_of_nonneg ∅ hnonneg
  -- both memories hold the same word at each address, since no address is dumped twice
  refine Prod.ext hok (ext ?_)
  intro a
  rw [get?_writeAll, hwritten, get?_empty, Option.or_none]
  apply Option.ext
  intro w
  rw [lastWord?_eq_some_iff_mem m.pairwise_cells, mem_cells_iff]

/-- Memories with the same dump are the same. -/
theorem dump_inj {n : Memory} : m.dump = n.dump ↔ m = n := by
  refine ⟨?_, congrArg dump⟩
  intro h
  have hcells : m.cells = n.cells := by rw [cells, cells, h]
  have hfilled := m.writeAll_cells
  rw [hcells, n.writeAll_cells] at hfilled
  exact (Prod.mk.inj hfilled).2.symm

/-! ## All calls -/

theorem recorded_of_get? {writes : List (Int × Int)} (h : ∀ a, m.get? a = lastWord? writes a) :
    Recorded writes m where
  read a := by rw [Memory.read, h]
  sorted := m.pairwise_dump
  mem_cells a w := by rw [mem_cells_iff, h]
  addresses a := by
    simp only [mem_cells_iff, h]
    exact exists_lastWord?_iff
  size := Std.ExtTreeMap.length_toList.symm
  contains a := by
    simp only [mem_cells_iff]
    exact Option.isSome_iff_exists
  refilled := m.writeAll_cells

/-- Words are loaded all or none: a load fails for its base, and then the memory is as it was. -/
theorem load_eq_error_iff {ws : List Int} {base : Int} {e : NegativeAddress} {n : Memory} :
    m.load ws base = (.error e, n) ↔ (base < 0 ∧ ws ≠ []) ∧ e = ⟨base⟩ ∧ n = m := by
  constructor
  · intro h
    have hbad : base < 0 ∧ ws ≠ [] := by
      by_contra hgood
      rw [not_and_or, not_lt, not_not] at hgood
      have hok := m.load_fst hgood
      rw [h] at hok
      cases hok
    rw [m.load_of_neg hbad.1 hbad.2] at h
    cases h
    exact ⟨hbad, rfl, rfl⟩
  · rintro ⟨⟨hneg, hne⟩, rfl, rfl⟩
    exact load_of_neg _ hneg hne

/-- **The last write counts.** After any calls on an empty memory, those that fail included, it is
the map of the writes that have succeeded; two sequences of calls leave the same dump exactly if
they have the same last words; and a load that fails has stored nothing. -/
theorem recorded_of_calls (first second : List Call) :
    Recorded ((∅ : Memory).history first) ((∅ : Memory).after first) ∧
      (((∅ : Memory).after first).dump = ((∅ : Memory).after second).dump ↔
        ∀ a, lastWord? ((∅ : Memory).history first) a =
          lastWord? ((∅ : Memory).history second) a) ∧
      ∀ (m : Memory) (ws : List Int) (base : Int) (e : NegativeAddress) (n : Memory),
        m.load ws base = (.error e, n) ↔ (base < 0 ∧ ws ≠ []) ∧ e = ⟨base⟩ ∧ n = m := by
  refine ⟨recorded_of_get? (get?_after_empty first), ?_, fun _ _ _ _ _ => load_eq_error_iff⟩
  rw [dump_inj]
  constructor
  · intro h a
    rw [← get?_after_empty, ← get?_after_empty, h]
  · intro h
    apply ext
    intro a
    rw [get?_after_empty, get?_after_empty, h]

/-- Two of these calls fail. -/
example : ((∅ : Memory).after
    [.write 9 1, .write (-1) 5, .load [3, 4] 2, .load [7] (-1), .write 3 0]).dump =
      [(2, 3), (3, 0), (9, 1)] := by decide +kernel

end WordMachine.Memory
