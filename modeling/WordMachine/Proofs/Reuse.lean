import WordMachine.Proofs.Resolution

/-!
# Workspaces used again

A workspace may have assembled other programs before, at other bases, with success or without, and
its memory may hold anything. None of this shows in an assembly: what it answers and what it notes
depends on the program and the base alone. In memory it writes each word between the base and the
next free address and no other, and the word that it writes at an address does not depend on what
was there.

## Main definitions

* `Memory.Blind`: a change of memory that does not look at what it overwrites
* `Workspace.Use`, `Workspace.afterUses`: what can be done with a workspace, and the workspace after
  that
* `Workspace.Renewed`: an assembly is that of a new workspace

## Main results

* `Draft.Rooted.addRows`: the first pass puts words at the base and behind it, also if it fails
* `Workspace.blind_assemble`: an assembly does not look at the memory that it writes
* `Workspace.renewed_of_afterUses`: an assembly does not depend on what the workspace was used for
-/

namespace WordMachine

/-! ## Changes of memory -/

namespace Memory

/-- A change of memory that puts fixed words at fixed places: those that it puts into the empty
memory. -/
def Blind (f : Memory → Memory) : Prop :=
  ∀ m a, (f m).get? a = ((f ∅).get? a).or (m.get? a)

namespace Blind

variable {f g : Memory → Memory}

theorem refl : Blind id := by
  intro m a
  simp

theorem comp (hg : Blind g) (hf : Blind f) : Blind fun m => g (f m) := by
  intro m a
  rw [hg (f m), hg (f ∅), hf m, Option.or_assoc]

/-- A blind change that is made twice is made once. -/
theorem idempotent (hf : Blind f) (m : Memory) : f (f m) = f m := by
  apply Memory.ext
  intro a
  rw [hf (f m), hf m]
  cases (f ∅).get? a <;> rfl

/-- What a blind change writes it writes into any memory. -/
theorem get?_eq_of_isSome (hf : Blind f) {a : Int} (h : ((f ∅).get? a).isSome) (m : Memory) :
    (f m).get? a = (f ∅).get? a := by
  rw [hf m, Option.or_of_isSome h]

/-- A blind change forgets no word. -/
theorem isSome_get? (hf : Blind f) {m : Memory} {a : Int} (h : (m.get? a).isSome) :
    ((f m).get? a).isSome := by
  rw [hf m, Option.isSome_or, h, Bool.or_true]

/-- A blind change is one also after a word is written, if that can be. -/
theorem write (hf : Blind f) (a w : Int) :
    Blind fun m => match m.write a w with
      | .ok n => f n
      | .error _ => m := by
  intro m b
  by_cases ha : 0 ≤ a
  · obtain ⟨n, hn⟩ := m.exists_write_eq_ok ha w
    obtain ⟨e, he⟩ := (∅ : Memory).exists_write_eq_ok ha w
    simp only [hn, he]
    rw [hf n, hf e, get?_write hn, get?_write he, get?_empty, Option.or_assoc]
    split <;> rfl
  · obtain ⟨hm, he⟩ : m.write a w = .error ⟨a⟩ ∧ (∅ : Memory).write a w = .error ⟨a⟩ :=
      ⟨write_eq_error_iff.mpr ⟨by omega, rfl⟩, write_eq_error_iff.mpr ⟨by omega, rfl⟩⟩
    simp [hm, he]

end Blind

theorem blind_writeAll (writes : List (Int × Int)) : Blind fun m => (m.writeAll writes).2 := by
  induction writes with
  | nil => exact Blind.refl
  | cons write writes ih =>
    obtain ⟨a, w⟩ := write
    have heq : (fun m : Memory => (m.writeAll ((a, w) :: writes)).2) = fun m =>
        match m.write a w with
        | .ok n => (n.writeAll writes).2
        | .error _ => m := by
      funext m
      rw [writeAll]
      split <;> simp [*]
    exact heq ▸ ih.write a w

theorem blind_load (ws : List Int) (base : Int) : Blind fun m => (m.load ws base).2 :=
  blind_writeAll (placed base ws)

/-- Words that are loaded are found where they were loaded. -/
theorem isSome_get?_load (m : Memory) {ws : List Int} {base a : Int} (h : 0 ≤ base ∨ ws = [])
    (hlo : base ≤ a) (hhi : a < base + ws.length) : ((m.load ws base).2.get? a).isSome := by
  rcases h with h | rfl
  · rw [get?_load m ws h, if_pos hlo, List.getElem?_eq_getElem (by omega)]
    rfl
  · rw [List.length_nil] at hhi
    omega

end Memory

section Resolve

variable (symbols : SymbolTable) (references : List (Int × String))

/-- References are resolved alike in all memories. -/
theorem resolve_fst_eq (m n : Memory) :
    (resolve m symbols references).1 = (resolve n symbols references).1 := by
  induction references generalizing m n with
  | nil => rfl
  | cons r references ih =>
    obtain ⟨a, s⟩ := r
    rw [resolve, resolve]
    cases symbols[s]? with
    | none => rfl
    | some target =>
      -- whether a word can be written depends on its address alone
      cases a with
      | ofNat a => exact ih _ _
      | negSucc a => rfl

theorem blind_resolve : Memory.Blind fun m => (resolve m symbols references).2 := by
  induction references with
  | nil => exact Memory.Blind.refl
  | cons r references ih =>
    obtain ⟨a, s⟩ := r
    cases ht : symbols[s]? with
    | none =>
      have heq : (fun m : Memory => (resolve m symbols ((a, s) :: references)).2) = id := by
        funext m
        rw [resolve, ht]
        rfl
      exact heq ▸ Memory.Blind.refl
    | some target =>
      have heq : (fun m : Memory => (resolve m symbols ((a, s) :: references)).2) = fun m =>
          match m.write a target with
          | .ok n => (resolve n symbols references).2
          | .error _ => m := by
        funext m
        rw [resolve, ht]
        dsimp only
        split <;> simp [*]
      exact heq ▸ ih.write a target

/-- Where no reference goes, memory is as it was. -/
theorem get?_resolve_of_outside {symbols} {references} {a : Int}
    (h : ∀ r ∈ references, r.1 ≠ a) (m : Memory) :
    (resolve m symbols references).2.get? a = m.get? a := by
  induction references generalizing m with
  | nil => rfl
  | cons r references ih =>
    rw [List.forall_mem_cons] at h
    obtain ⟨x, s⟩ := r
    rw [resolve]
    split
    · rfl
    · split
      · rfl
      · next n hn => rw [ih h.2, Memory.get?_write hn, if_neg (Ne.symm h.1)]

end Resolve

/-! ## The first pass -/

namespace Draft

/-- The draft puts its cells at a base and behind it, if there is an address for them. -/
structure Rooted (base : Int) (d : Draft) : Prop where
  base_eq : d.base = base
  place : d.cells = #[] ∨ 0 ≤ base

namespace Rooted

variable {base : Int} {d : Draft}

theorem bindLabel {d' : Draft} {row : Row} (h : Rooted base d) (hd : d.bindLabel row = .ok d') :
    Rooted base d' := by
  rw [bindLabel_eq] at hd
  cases hc : d.labelComplaint? row with
  | some c =>
    rw [hc] at hd
    cases hd
  | none =>
    rw [hc] at hd
    obtain rfl := Except.ok.inj hd
    exact ⟨h.base_eq, h.place⟩

theorem noteStart (h : Rooted base d) (row : Row) : Rooted base (d.noteStart row) := by
  unfold Draft.noteStart
  split
  · exact ⟨h.base_eq, h.place⟩
  · exact h

theorem addItems (h : Rooted base d) (row : Row) (index : Nat) (items : List Item) :
    Rooted base (d.addItems row index items).2 := by
  induction items generalizing d with
  | nil => exact h
  | cons item items ih =>
    cases item with
    | error c => exact h
    | ok cell =>
      rw [Draft.addItems]
      split
      · exact ⟨h.base_eq, h.place⟩
      · next hplace =>
        refine ih ⟨h.base_eq, .inr ?_⟩
        -- the first cell shows that there is an address, and the others lie behind it
        rcases h.place with hc | hb
        · simpa [address, h.base_eq, hc] using hplace
        · exact hb

theorem addRow (h : Rooted base d) (row : Row) (index : Nat) :
    Rooted base (d.addRow row index).2 := by
  unfold Draft.addRow
  split
  · exact h
  · next hd => exact ((h.bindLabel hd).noteStart row).addItems row index row.items

/-- The first pass puts words at the base and behind it, up to the row that it refuses. -/
theorem addRows (h : Rooted base d) (index : Nat) (rows : List Row) :
    Rooted base (d.addRows index rows).2 := by
  induction rows generalizing d index with
  | nil => exact h
  | cons row rows ih =>
    have hrow := h.addRow row index
    rw [Draft.addRows]
    split
    · next heq =>
      rw [heq] at hrow
      exact ih hrow (index + 1)
    · next heq =>
      rw [heq] at hrow
      exact hrow

theorem address_eq (h : Rooted base d) : d.address = base + d.words.length := by
  rw [address, h.base_eq, words, List.length_map, Array.length_toList]

theorem words_place (h : Rooted base d) : 0 ≤ base ∨ d.words = [] := by
  rcases h.place with hc | hb
  · exact .inr (by rw [words, hc]; rfl)
  · exact .inl hb

theorem pool_place (h : Rooted base d) : 0 ≤ d.address ∨ d.pool.map (·.value) = [] := by
  rcases h.place with hc | hb
  · exact .inr (by rw [pool, hc]; rfl)
  · exact .inl (by rw [h.address_eq]; omega)

end Rooted

theorem rooted_of_ofRows {base : Int} {rows : List Row} {result : Except Failure Unit} {d : Draft}
    (h : ofRows base rows = (result, d)) : Rooted base d := by
  have hrooted := (show Rooted base { base } from ⟨rfl, .inl rfl⟩).addRows 0 rows
  rw [ofRows] at h
  rwa [h] at hrooted

end Draft

/-! ## Both passes -/

namespace Workspace

/-- A new workspace for the same program at the same base, which has bound no label yet. -/
def renew (w : Workspace) (memory : Memory) : Workspace :=
  { memory, base := w.base, rows := w.rows }

/-- An assembly starts by forgetting what the workspace has noted. -/
theorem assemble_renew_memory (w : Workspace) : (w.renew w.memory).assemble = w.assemble := by
  rcases hd : Draft.ofRows w.base w.rows with ⟨_ | _, d⟩
  · rw [assemble_of_error hd, assemble_of_error (w := w.renew w.memory) hd]
    rfl
  · rw [assemble_of_ok hd, assemble_of_ok (w := w.renew w.memory) hd]
    rfl

/-- With another memory an assembly differs in memory only. -/
theorem assemble_renew (w : Workspace) (m : Memory) :
    (w.renew m).assemble =
      (w.assemble.1, { w.assemble.2 with memory := (w.renew m).assemble.2.memory }) := by
  rcases hd : Draft.ofRows w.base w.rows with ⟨_ | _, d⟩
  · rw [assemble_of_error hd, assemble_of_error (w := w.renew m) hd]
    rfl
  · have hresult : ((w.renew m).resolveDraft d).1 = (w.resolveDraft d).1 :=
      resolve_fst_eq _ _ _ _
    rw [assemble_of_ok hd, assemble_of_ok (w := w.renew m) hd, hresult]
    rfl

/-- An assembly does not look at the memory that it writes. -/
theorem blind_assemble (w : Workspace) : Memory.Blind fun m => (w.renew m).assemble.2.memory := by
  rcases hd : Draft.ofRows w.base w.rows with ⟨_ | _, d⟩
  · have heq : (fun m => (w.renew m).assemble.2.memory) = fun m => (m.load d.words w.base).2 := by
      funext m
      rw [assemble_of_error (w := w.renew m) hd]
      rfl
    exact heq ▸ Memory.blind_load _ _
  · have heq : (fun m => (w.renew m).assemble.2.memory) =
        fun m => (resolve ((m.load d.words w.base).2.load (d.pool.map (·.value)) d.address).2
          (w.withDraft d).symbols (w.withDraft d).references).2 := by
      funext m
      rw [assemble_of_ok (w := w.renew m) hd]
      rfl
    exact heq ▸ (blind_resolve _ _).comp ((Memory.blind_load _ _).comp (Memory.blind_load _ _))

/-- An assembly writes no word before the base and none from the next free address on. -/
theorem get?_assemble_of_outside (w : Workspace) {a : Int}
    (ha : a < w.base ∨ w.assemble.2.address ≤ a) :
    w.assemble.2.memory.get? a = w.memory.get? a := by
  rcases hd : Draft.ofRows w.base w.rows with ⟨_ | _, d⟩
  · have hr := Draft.rooted_of_ofRows hd
    rw [assemble_of_error hd] at ha ⊢
    have ha : a < w.base ∨ d.address ≤ a := ha
    rw [hr.address_eq] at ha
    exact Memory.get?_load_of_outside _ hr.words_place ha
  · have hr := Draft.rooted_of_ofRows hd
    have haddress := hr.address_eq
    rw [assemble_of_ok hd] at ha ⊢
    have ha : a < w.base ∨ d.address + d.pool.length ≤ a := ha
    -- the references go to words of the program
    have hrefs : ∀ r ∈ (w.withDraft d).references, r.1 ≠ a := by
      rintro ⟨x, s⟩ hm rfl
      have hlaid := Draft.laidOut_of_ofRows hd
      have hm : (x, s) ∈ d.references := hm
      rw [hlaid.references_eq] at hm
      obtain ⟨n, c, hc, -, rfl⟩ := mem_openPlaces_iff.mp hm
      have hlt := (List.getElem?_eq_some_iff.mp hc).1
      rw [List.length_map, ← List.length_map (f := fun p : Cell × Nat => p.1.placeholder),
        ← hlaid.words_eq] at hlt
      simp only at ha
      omega
    have hresolve : (w.resolveDraft d).2.get? a = (w.withDraft d).memory.get? a :=
      get?_resolve_of_outside hrefs _
    have hpool : (w.withDraft d).memory.get? a = (w.store d).memory.get? a :=
      Memory.get?_load_of_outside _ hr.pool_place (by rw [List.length_map]; omega)
    rw [hresolve, hpool]
    exact Memory.get?_load_of_outside _ hr.words_place (by omega)

/-- An assembly writes a word at each address from the base to the next free one. -/
theorem isSome_get?_assemble (w : Workspace) {a : Int} (hb : w.base ≤ a)
    (ha : a < w.assemble.2.address) : (w.assemble.2.memory.get? a).isSome := by
  rcases hd : Draft.ofRows w.base w.rows with ⟨_ | _, d⟩
  · have hr := Draft.rooted_of_ofRows hd
    rw [assemble_of_error hd] at ha ⊢
    have ha : a < d.address := ha
    rw [hr.address_eq] at ha
    exact w.memory.isSome_get?_load hr.words_place hb ha
  · have hr := Draft.rooted_of_ofRows hd
    have haddress := hr.address_eq
    rw [assemble_of_ok hd] at ha ⊢
    have ha : a < d.address + d.pool.length := ha
    -- resolving the references forgets no word, so it is enough that one was loaded
    refine (blind_resolve _ _).isSome_get? ?_
    rcases Int.lt_or_le a d.address with hlt | hge
    · exact (Memory.blind_load _ _).isSome_get?
        (w.memory.isSome_get?_load hr.words_place hb (by omega))
    · have hpool := (w.store d).memory.isSome_get?_load hr.pool_place hge
        (by rw [List.length_map]; omega)
      exact hpool

@[simp] theorem renew_assemble (w : Workspace) (m : Memory) :
    w.assemble.2.renew m = w.renew m := by
  rcases hd : Draft.ofRows w.base w.rows with ⟨_ | _, d⟩
  · rw [assemble_of_error hd]
    rfl
  · rw [assemble_of_ok hd]
    rfl

/-- A second assembly answers what the first one did and leaves everything as it is. -/
theorem assemble_assemble (w : Workspace) : w.assemble.2.assemble = w.assemble := by
  have hmemory : (w.renew w.assemble.2.memory).assemble.2.memory = w.assemble.2.memory := by
    have htwice := w.blind_assemble.idempotent w.memory
    rwa [assemble_renew_memory] at htwice
  rw [← assemble_renew_memory w.assemble.2, renew_assemble, assemble_renew, hmemory]

/-! ## Uses -/

/-- What can be done with a workspace. -/
inductive Use where
  /-- To assemble the program. -/
  | assemble
  /-- To put another program in its place. -/
  | setRows (rows : List Row)
  /-- To choose another base. -/
  | setBase (base : Int)
  /-- To ask where the program is to be entered. -/
  | findEntry
  /-- To put addresses of symbols into memory. -/
  | resolve (symbols : SymbolTable) (references : List (Int × String))
  /-- To write a word in memory. -/
  | write (address w : Int)

/-- The workspace after a use, which may have failed. -/
def use (w : Workspace) : Use → Workspace
  | .assemble => w.assemble.2
  | .setRows rows => { w with rows }
  | .setBase base => { w with base }
  | .findEntry => w
  | .resolve symbols references =>
    { w with memory := (WordMachine.resolve w.memory symbols references).2 }
  | .write address x =>
    match w.memory.write address x with
    | .ok memory => { w with memory }
    | .error _ => w

/-- The workspace after some uses in turn. -/
def afterUses (w : Workspace) (uses : List Use) : Workspace :=
  uses.foldl use w

/-- The assembly of a workspace is that of a new workspace, which has noted nothing yet. -/
structure Renewed (w new : Workspace) : Prop where
  /-- The answer is the same, or the failure. -/
  result : w.assemble.1 = new.assemble.1
  /-- The same labels are bound. -/
  labels : w.assemble.2.labels = new.assemble.2.labels
  /-- The same symbols are to be put into the same places. -/
  references : w.assemble.2.references = new.assemble.2.references
  /-- The same rows have made the words. -/
  addressMap : w.assemble.2.addressMap = new.assemble.2.addressMap
  /-- The next free address is the same. -/
  address : w.assemble.2.address = new.assemble.2.address
  /-- The program begins at the same row. -/
  start : w.assemble.2.start = new.assemble.2.start
  /-- It is entered at the same label. -/
  entry : w.assemble.2.entry = new.assemble.2.entry
  /-- Outside the addresses from the base to the next free one memory is as it was before. -/
  outside : ∀ a, a < w.base ∨ w.assemble.2.address ≤ a →
    w.assemble.2.memory.get? a = w.memory.get? a
  /-- Inside, each address holds a word, and the new workspace would write the same. -/
  inside : ∀ a, w.base ≤ a → a < w.assemble.2.address → ∃ x,
    w.assemble.2.memory.get? a = some x ∧ new.assemble.2.memory.get? a = some x

/-- Any workspace assembles as a new one does, whatever is in the memory of the new one. -/
theorem renewed (w : Workspace) (memory : Memory) : w.Renewed (w.renew memory) := by
  have hnew := w.assemble_renew memory
  constructor
  case result => rw [hnew]
  case labels => rw [hnew]
  case references => rw [hnew]
  case addressMap => rw [hnew]
  case address => rw [hnew]
  case start => rw [hnew]
  case entry => rw [hnew]
  case outside => exact fun a ha => w.get?_assemble_of_outside ha
  case inside =>
    intro a hb ha
    -- an assembly into the empty memory writes the address, so every assembly writes the same word
    have haddress : (w.renew ∅).assemble.2.address = w.assemble.2.address := by
      rw [assemble_renew]
    have hwritten := (w.renew ∅).isSome_get?_assemble hb (haddress ▸ ha)
    obtain ⟨x, hx⟩ := Option.isSome_iff_exists.mp hwritten
    have hsame (m : Memory) : (w.renew m).assemble.2.memory.get? a = some x :=
      (w.blind_assemble.get?_eq_of_isSome hwritten m).trans hx
    exact ⟨x, w.assemble_renew_memory ▸ hsame w.memory, hsame memory⟩

/-- **Reuse.** Whatever a workspace was used for, it assembles the program and the base that it has
by now as a new workspace does, and to assemble them once more changes nothing. -/
theorem renewed_of_afterUses (w : Workspace) (uses : List Use) (memory : Memory) :
    (w.afterUses uses).Renewed ((w.afterUses uses).renew memory) ∧
      (w.afterUses uses).assemble.2.assemble = (w.afterUses uses).assemble :=
  ⟨renewed _ memory, assemble_assemble _⟩

end Workspace

end WordMachine
